import TrusTrove.CreateInvoice

/-!
# The sequence numbers of created invoices

An envelope is numbered one past the sequence its request read, so two of them share a number
exactly if no transaction of the account was applied between the two reads. Requests that read only
once every number read before is used up, by an applied envelope or a request that gave up, never
share one, and none is sent with a number another request has taken.
-/

namespace TrusTrove

variable (T : InvoiceTools) (contractID : String)

/-- The number a request holds, and when it read it. -/
def CreatePhase.held : CreatePhase → Option (ℤ × ℕ)
  | .built tx readAt => some (tx.sequence, readAt)
  | .signed env _ readAt => some (env.sequence, readAt)
  | _ => none

def CreateWorld.held (w : CreateWorld) (i : ℕ) : Option (ℤ × ℕ) :=
  w.calls[i]?.bind (·.phase.held)

/-- No request holds a number, and every envelope sent has been applied. -/
def CreateWorld.Clear (w : CreateWorld) : Prop :=
  (∀ i, w.held i = none) ∧ ∀ e ∈ w.sent, e.env.sequence ≤ w.sequence

/-- A request reads the account only when no number is out. -/
def CreateStep.Alone : CreateStep → CreateWorld → Prop
  | fetchServerSequence _ _ _, w => w.Clear
  | _, _ => True

/-- What a step does to the numbers. -/
inductive CreateMove (step : CreateStep) (w w' : CreateWorld) : Prop
  /-- No number is read, sent or applied; a request may give its own up. -/
  | quiet (hseq : w'.sequence = w.sequence) (happ : w'.applied = w.applied)
      (hsent : w'.sent = w.sent) (hheld : ∀ i n, w'.held i = some n → w.held i = some n)
  | read (i : ℕ) (halone : step.Alone w → w.Clear) (hseq : w'.sequence = w.sequence)
      (happ : w'.applied = w.applied) (hsent : w'.sent = w.sent)
      (hheld : ∀ j, w'.held j = if j = i then some ((w.sequence : ℤ) + 1, w.applied) else w.held j)
  | sent (i : ℕ) (env : InvoiceTx) (readAt : ℕ) (hseq : w'.sequence = w.sequence)
      (happ : w'.applied = w.applied) (hold : w.held i = some (env.sequence, readAt))
      (hsent : w'.sent = w.sent ++ [⟨i, env, readAt⟩])
      (hheld : ∀ j, w'.held j = if j = i then none else w.held j)
  | closed (e : SentEnvelope) (he : e ∈ w.sent) (hnext : e.env.sequence = w.sequence + 1)
      (hseq : w'.sequence = w.sequence + 1) (happ : w'.applied = w.applied + 1)
      (hsent : w'.sent = w.sent) (hheld : ∀ i, w'.held i = w.held i)

section Move

variable {T contractID}

theorem parseInt64_repr {n : ℕ} {m : ℤ} (h : parseInt64 (Nat.repr n) = some m) : m = n := by
  simp only [parseInt64, setString_repr, Option.filter_eq_some_iff, Option.some.injEq] at h
  exact h.1.symm

theorem fetchServerSequence_repr {reached : Bool} {n : ℕ} {seq : ℤ}
    (h : fetchServerSequence (if reached then some (Nat.repr n) else none) = .ok seq) :
    seq = n := by
  cases reached with
  | false => simp [fetchServerSequence] at h
  | true =>
    simp only [fetchServerSequence, if_true] at h
    split at h
    · simp at h
    · rename_i m hm
      obtain rfl : m = seq := by simpa using h
      exact parseInt64_repr hm

theorem assembleTx_ok {params : CreateInvoiceParams} {answer : Option String} {now : ℤ}
    {tx : InvoiceTx} {txBase64 : String}
    (h : assembleTx T contractID params answer now = .ok (tx, txBase64)) :
    ∃ seq, fetchServerSequence answer = .ok seq ∧ tx.sequence = seq + 1 := by
  unfold assembleTx at h
  cases hs : fetchServerSequence answer with
  | error e => simp [hs, bind, Except.bind] at h
  | ok seq =>
    refine ⟨seq, rfl, ?_⟩
    cases ho : buildCreateInvoiceOp T contractID params with
    | error e => simp [hs, ho, bind, Except.bind] at h
    | ok op =>
      simp only [hs, ho, bind, Except.bind] at h
      split_ifs at h
      split at h
      · simp at h
      · obtain ⟨rfl, -⟩ : _ ∧ _ := by simpa using h
        rfl

theorem signCreateInvoiceTx_sequence {tx env : InvoiceTx} {simResp : SimulateResponse}
    {signedTx : String} (h : signCreateInvoiceTx T tx simResp = .ok (env, signedTx)) :
    env.sequence = tx.sequence := by
  unfold signCreateInvoiceTx at h
  split_ifs at h
  split at h
  · simp at h
  · simp only [] at h
    split at h
    · simp at h
    · obtain ⟨rfl, -⟩ : _ ∧ _ := by simpa using h
      rfl

theorem held_set {w w' : CreateWorld} {i : ℕ} {c c' : CreateCall} (hc : w.calls[i]? = some c)
    (hw : w'.calls = w.calls.set i c') (j : ℕ) :
    w'.held j = if j = i then c'.phase.held else w.held j := by
  have hi : i < w.calls.length := (List.getElem?_eq_some_iff.1 hc).1
  unfold CreateWorld.held
  rw [hw, List.getElem?_set]
  by_cases hij : i = j
  · subst hij
    simp [hi]
  · simp [hij, Ne.symm hij]

theorem held_of_phase {w : CreateWorld} {i : ℕ} {c : CreateCall} (hc : w.calls[i]? = some c) :
    w.held i = c.phase.held := by
  simp [CreateWorld.held, hc]

theorem CreateMove.same (step : CreateStep) (w : CreateWorld) : CreateMove step w w :=
  .quiet rfl rfl rfl fun _ _ h => h

/-- A request that goes on without a number, or with the one it holds. -/
theorem CreateMove.goto {step : CreateStep} {w : CreateWorld} {i : ℕ} {c : CreateCall}
    {phase : CreatePhase} (hc : w.calls[i]? = some c)
    (hp : phase.held = none ∨ phase.held = c.phase.held) :
    CreateMove step w { w with calls := w.calls.set i (c.goto phase) } := by
  refine .quiet rfl rfl rfl fun j n hn => ?_
  rw [held_set hc rfl] at hn
  split_ifs at hn with hj
  · subst hj
    rw [held_of_phase hc]
    rcases hp with hp | hp
    · rw [CreateCall.goto, hp] at hn
      simp at hn
    · rwa [CreateCall.goto, hp] at hn
  · exact hn

theorem submitCreate_held (invoiceID : String) (answer : SendAnswer) :
    (submitCreate invoiceID answer).held = none := by
  unfold submitCreate
  split
  · rfl
  · rfl
  · split_ifs <;> rfl

theorem pollCreate_held (c : CreateCall) (hash invoiceID : String) (attempts : ℕ)
    (answer : PollAnswer) (stored : Bool) :
    (pollCreate c hash invoiceID attempts answer stored).held = none := by
  unfold pollCreate
  split
  · rfl
  · split_ifs
    any_goals rfl
    split <;> rfl

theorem receiveCreate_held (requestID : String) (userAddress : Option String)
    (body : Except BodyError CreateInvoiceRequest) (now : ℤ) :
    (receiveCreate T requestID userAddress body now).phase.held = none := by
  unfold receiveCreate
  split
  · rfl
  · split <;> rfl

theorem CreateMove.arrive (w : CreateWorld) (requestID : String) (userAddress : Option String)
    (body : Except BodyError CreateInvoiceRequest) (now : ℤ) :
    CreateMove (.arrive requestID userAddress body now) w
      ((CreateStep.arrive requestID userAddress body now).apply T contractID w) := by
  refine .quiet rfl rfl rfl fun j n hn => ?_
  unfold CreateWorld.held at hn ⊢
  rw [show (CreateStep.apply T contractID (.arrive requestID userAddress body now) w).calls
    = w.calls ++ [receiveCreate T requestID userAddress body now] from rfl,
    List.getElem?_append] at hn
  split_ifs at hn with hj
  · exact hn
  · rw [List.getElem?_singleton] at hn
    split_ifs at hn
    · simp [receiveCreate_held] at hn
    · simp at hn

theorem CreateMove.fetch (w : CreateWorld) (i : ℕ) (reached : Bool) (now : ℤ) :
    CreateMove (.fetchServerSequence i reached now) w
      ((CreateStep.fetchServerSequence i reached now).apply T contractID w) := by
  simp only [CreateStep.apply]
  split
  · rename_i c hc
    split
    · split
      · exact .goto hc (.inl rfl)
      · rename_i tx txBase64 htx
        obtain ⟨seq, hseq, htxseq⟩ := assembleTx_ok htx
        refine .read i id rfl rfl rfl fun j => ?_
        rw [held_set hc rfl, CreateCall.goto, CreatePhase.held, htxseq,
          fetchServerSequence_repr hseq]
    · exact .same _ w
  · exact .same _ w

theorem CreateMove.simulate (w : CreateWorld) (i : ℕ) (answer : Option SimulateResponse) :
    CreateMove (.simulate i answer) w ((CreateStep.simulate i answer).apply T contractID w) := by
  simp only [CreateStep.apply]
  split
  · rename_i c hc
    split
    · rename_i tx readAt hph
      split
      · exact .goto hc (.inl rfl)
      · rename_i env invoiceID hsig
        refine .goto hc (.inr ?_)
        cases hs : simulateCreateInvoiceTx T answer with
        | error e => simp [hs, bind, Except.bind] at hsig
        | ok simulated =>
          cases hg : signCreateInvoiceTx T tx simulated.1 with
          | error e => simp [hs, hg, bind, Except.bind] at hsig
          | ok signed =>
            obtain ⟨rfl, -⟩ : signed.1 = env ∧ simulated.2 = invoiceID := by
              simpa [hs, hg, bind, Except.bind, pure, Except.pure] using hsig
            simp only [hph, CreatePhase.held, signCreateInvoiceTx_sequence hg]
    · exact .same _ w
  · exact .same _ w

theorem CreateMove.send (w : CreateWorld) (i : ℕ) (answer : SendAnswer) :
    CreateMove (.send i answer) w ((CreateStep.send i answer).apply T contractID w) := by
  simp only [CreateStep.apply]
  split
  · rename_i c hc
    split
    · rename_i env invoiceID readAt hph
      have hold : w.held i = some (env.sequence, readAt) := by
        rw [held_of_phase hc, hph]
        rfl
      cases answer with
      | unreached => exact .goto hc (.inl rfl)
      | lost =>
        refine .sent i env readAt rfl rfl hold rfl fun j => ?_
        rw [held_set hc rfl, CreateCall.goto, submitCreate_held]
      | answered hash status error =>
        refine .sent i env readAt rfl rfl hold rfl fun j => ?_
        rw [held_set hc rfl, CreateCall.goto, submitCreate_held]
    · exact .same _ w
  · exact .same _ w

theorem CreateMove.poll (w : CreateWorld) (i : ℕ) (answer : PollAnswer) (stored : Bool) :
    CreateMove (.poll i answer stored) w
      ((CreateStep.poll i answer stored).apply T contractID w) := by
  simp only [CreateStep.apply]
  split
  · rename_i c hc
    split
    · exact .goto hc (.inl (pollCreate_held ..))
    · exact .same _ w
  · exact .same _ w

theorem CreateMove.close (w : CreateWorld) (k : ℕ) :
    CreateMove (.close k) w ((CreateStep.close k).apply T contractID w) := by
  simp only [CreateStep.apply]
  split
  · rename_i e he
    split_ifs with hnext
    · exact .closed e (List.mem_of_getElem? he) hnext rfl rfl rfl fun _ => rfl
    · exact .same _ w
  · exact .same _ w

theorem CreateStep.move (step : CreateStep) (w : CreateWorld) :
    CreateMove step w (step.apply T contractID w) := by
  cases step with
  | arrive requestID userAddress body now => exact .arrive w requestID userAddress body now
  | fetchServerSequence i reached now => exact .fetch w i reached now
  | simulate i answer => exact .simulate w i answer
  | send i answer => exact .send w i answer
  | poll i answer stored => exact .poll w i answer stored
  | close k => exact .close w k

end Move

section Runs

/-- The account before any request. -/
def freshAccount (sequence : ℕ) : CreateWorld := ⟨sequence, 0, [], []⟩

/-- Numbers follow the count of applied transactions. -/
structure Recorded (base : ℕ) (w : CreateWorld) : Prop where
  sequence : w.sequence = base + w.applied
  held : ∀ i n readAt, w.held i = some (n, readAt) → n = base + readAt + 1
  sent : ∀ e ∈ w.sent, e.env.sequence = base + e.readAt + 1

/-- Every read of a run is made when no number is out. -/
def OneAtATime : List CreateStep → CreateWorld → Prop
  | [], _ => True
  | step :: steps, w => step.Alone w ∧ OneAtATime steps (step.apply T contractID w)

/-- The numbers of a run whose reads are made one at a time: at most one is out, and it is the
account's next. -/
structure Numbered (w : CreateWorld) : Prop where
  nodup : (w.sent.map (·.env.sequence)).Nodup
  sent : ∀ e ∈ w.sent, e.env.sequence ≤ w.sequence + 1
  held : ∀ i n readAt, w.held i = some (n, readAt) →
    n = w.sequence + 1 ∧ (∀ e ∈ w.sent, e.env.sequence ≤ w.sequence)
      ∧ ∀ j, w.held j ≠ none → j = i

variable {T contractID}

theorem Recorded.move {base : ℕ} {step : CreateStep} {w w' : CreateWorld}
    (h : Recorded base w) (m : CreateMove step w w') : Recorded base w' := by
  cases m with
  | quiet hseq happ hsent hheld =>
    refine ⟨by rw [hseq, happ, h.sequence], fun i n r hn => h.held i n r (hheld i _ hn), ?_⟩
    rw [hsent]
    exact h.sent
  | read i halone hseq happ hsent hheld =>
    refine ⟨by rw [hseq, happ, h.sequence], fun j n r hn => ?_, by rw [hsent]; exact h.sent⟩
    rw [hheld] at hn
    split_ifs at hn with hj
    · obtain ⟨rfl, rfl⟩ : _ ∧ _ := by simpa using hn
      rw [h.sequence]
      push_cast
      ring
    · exact h.held j n r hn
  | sent i env readAt hseq happ hold hsent hheld =>
    refine ⟨by rw [hseq, happ, h.sequence], fun j n r hn => ?_, ?_⟩
    · rw [hheld] at hn
      split_ifs at hn with hj
      exact h.held j n r hn
    · intro e he
      rw [hsent, List.mem_append, List.mem_singleton] at he
      rcases he with he | rfl
      · exact h.sent e he
      · exact h.held i _ _ hold
  | closed e he hnext hseq happ hsent hheld =>
    refine ⟨by rw [hseq, happ, h.sequence]; omega, fun i n r hn => ?_, by rw [hsent]; exact h.sent⟩
    rw [hheld] at hn
    exact h.held i n r hn

theorem Numbered.quiet {w w' : CreateWorld} (h : Numbered w) (hseq : w'.sequence = w.sequence)
    (hsent : w'.sent = w.sent) (hheld : ∀ i n, w'.held i = some n → w.held i = some n) :
    Numbered w' := by
  refine ⟨by rw [hsent]; exact h.nodup, by rw [hsent, hseq]; exact h.sent, fun i n r hn => ?_⟩
  obtain ⟨h1, h2, h3⟩ := h.held i n r (hheld i _ hn)
  refine ⟨by rw [hseq]; exact h1, by rw [hsent, hseq]; exact h2, fun j hj => h3 j ?_⟩
  obtain ⟨p, hp⟩ := Option.ne_none_iff_exists'.1 hj
  rw [hheld j p hp]
  simp

theorem Numbered.read {w w' : CreateWorld} {i : ℕ} (h : Numbered w) (hclear : w.Clear)
    (hseq : w'.sequence = w.sequence) (hsent : w'.sent = w.sent)
    (hheld : ∀ j, w'.held j = if j = i then some ((w.sequence : ℤ) + 1, w.applied) else w.held j) :
    Numbered w' := by
  refine ⟨by rw [hsent]; exact h.nodup, by rw [hsent, hseq]; exact h.sent, fun j n r hn => ?_⟩
  rw [hheld] at hn
  split_ifs at hn with hj
  · subst hj
    obtain ⟨rfl, rfl⟩ : _ ∧ _ := by simpa using hn
    refine ⟨by rw [hseq], by rw [hsent, hseq]; exact hclear.2, fun k hk => ?_⟩
    by_contra hne
    rw [hheld, if_neg hne, hclear.1 k] at hk
    simp at hk
  · rw [hclear.1 j] at hn
    simp at hn

theorem Numbered.sending {w w' : CreateWorld} {i : ℕ} {env : InvoiceTx} {readAt : ℕ}
    (h : Numbered w) (hseq : w'.sequence = w.sequence)
    (hold : w.held i = some (env.sequence, readAt)) (hsent : w'.sent = w.sent ++ [⟨i, env, readAt⟩])
    (hheld : ∀ j, w'.held j = if j = i then none else w.held j) : Numbered w' := by
  obtain ⟨hn, hle, hone⟩ := h.held i _ _ hold
  have hnone : ∀ j, w'.held j = none := by
    intro j
    rw [hheld]
    split_ifs with hj
    · rfl
    · by_contra hne
      exact hj (hone j hne)
  refine ⟨?_, fun e he => ?_, fun j n r hj => by simp [hnone] at hj⟩
  · rw [hsent, List.map_append, List.nodup_append]
    refine ⟨h.nodup, by simp, fun a ha b hb => ?_⟩
    obtain ⟨e, he, rfl⟩ := List.mem_map.1 ha
    obtain rfl : b = env.sequence := by simpa using hb
    have := hle e he
    omega
  · rw [hsent, List.mem_append, List.mem_singleton] at he
    rw [hseq]
    rcases he with he | rfl
    · exact h.sent e he
    · exact hn.le

theorem Numbered.closing {w w' : CreateWorld} {e : SentEnvelope} (h : Numbered w) (he : e ∈ w.sent)
    (hnext : e.env.sequence = w.sequence + 1) (hseq : w'.sequence = w.sequence + 1)
    (hsent : w'.sent = w.sent) (hheld : ∀ i, w'.held i = w.held i) : Numbered w' := by
  refine ⟨by rw [hsent]; exact h.nodup, fun e' he' => ?_, fun i n r hn => ?_⟩
  · rw [hsent] at he'
    have := h.sent e' he'
    rw [hseq]
    push_cast
    omega
  · rw [hheld] at hn
    have := (h.held i n r hn).2.1 e he
    omega

theorem Numbered.move {step : CreateStep} {w w' : CreateWorld} (h : Numbered w)
    (m : CreateMove step w w') (halone : step.Alone w) : Numbered w' := by
  cases m with
  | quiet hseq happ hsent hheld => exact h.quiet hseq hsent hheld
  | read i hclear hseq happ hsent hheld => exact h.read (hclear halone) hseq hsent hheld
  | sent i env readAt hseq happ hold hsent hheld => exact h.sending hseq hold hsent hheld
  | closed e he hnext hseq happ hsent hheld => exact h.closing he hnext hseq hsent hheld

theorem createRun_recorded {base : ℕ} : ∀ (steps : List CreateStep) {w : CreateWorld},
    Recorded base w → Recorded base (createRun T contractID steps w)
  | [], _, h => h
  | step :: steps, w, h => createRun_recorded steps (h.move (step.move w))

theorem createRun_numbered : ∀ (steps : List CreateStep) {w : CreateWorld},
    Numbered w → OneAtATime T contractID steps w → Numbered (createRun T contractID steps w)
  | [], _, h, _ => h
  | step :: steps, w, h, ⟨halone, hrest⟩ =>
    createRun_numbered steps (h.move (step.move w) halone) hrest

theorem freshAccount_recorded (sequence : ℕ) : Recorded sequence (freshAccount sequence) :=
  ⟨rfl, fun i n r h => by simp [CreateWorld.held, freshAccount] at h,
    fun e he => by simp [freshAccount] at he⟩

theorem freshAccount_numbered (sequence : ℕ) : Numbered (freshAccount sequence) :=
  ⟨by simp [freshAccount], fun e he => by simp [freshAccount] at he,
    fun i n r h => by simp [CreateWorld.held, freshAccount] at h⟩

end Runs

/-- In any interleaving, two envelopes on the network carry one number exactly if no transaction of
the account was applied between the reads of their requests. If every read is made when no number is
out, no two do, and an envelope that is not applied yet carries the account's next number. -/
theorem create_sequences (sequence : ℕ) (steps : List CreateStep) :
    (∀ e ∈ (createRun T contractID steps (freshAccount sequence)).sent,
      ∀ e' ∈ (createRun T contractID steps (freshAccount sequence)).sent,
        e.env.sequence = e'.env.sequence ↔ e.readAt = e'.readAt)
    ∧ (OneAtATime T contractID steps (freshAccount sequence) →
      ((createRun T contractID steps (freshAccount sequence)).sent.map (·.env.sequence)).Nodup
      ∧ ∀ e ∈ (createRun T contractID steps (freshAccount sequence)).sent,
        e.env.sequence ≤ (createRun T contractID steps (freshAccount sequence)).sequence
          ∨ e.env.sequence
            = (createRun T contractID steps (freshAccount sequence)).sequence + 1) := by
  have hr : Recorded sequence (createRun T contractID steps (freshAccount sequence)) :=
    createRun_recorded steps (freshAccount_recorded sequence)
  refine ⟨fun e he e' he' => ?_, fun hone => ?_⟩
  · rw [hr.sent e he, hr.sent e' he']
    omega
  · have hn := createRun_numbered steps (freshAccount_numbered sequence) hone
    refine ⟨hn.nodup, fun e he => ?_⟩
    have := hn.sent e he
    omega

section Recorded

/-- Libraries that refuse nothing. -/
def recordedTools : InvoiceTools where
  parse := fun _ => true
  makeAddressScVal := fun _ => true
  invokable := fun _ => true
  newTransaction := fun _ => true
  base64 := fun _ => some "tx"
  parseInvoiceID := fun _ => .ok "01"
  unmarshalData := fun _ => true
  sign := fun _ => .ok "signed"

/-- A request of `issuer`, received at second 0. -/
def recordedArrival (issuer : String) : CreateStep :=
  .arrive "req" (some issuer) (.ok ⟨"GB", "1000", 86400, ""⟩) 0

/-- The calls of one request from its read to its envelope. -/
def recordedCreateSteps (i : ℕ) : List CreateStep :=
  [.fetchServerSequence i true 0, .simulate i (some ⟨"data", "100", ["xdr"]⟩),
    .send i (.answered "hash" "PENDING" "")]

/-- Two requests that read the account before either sends. -/
def overlappingCreations : List CreateStep :=
  [recordedArrival "GA", recordedArrival "GC", .fetchServerSequence 0 true 0]
    ++ recordedCreateSteps 1 ++ (recordedCreateSteps 0).tail

theorem overlapping_share_number :
    (createRun recordedTools "CC" overlappingCreations (freshAccount 41)).sent.map
      (·.env.sequence) = [42, 42] := by
  decide +kernel

theorem clear_iff (w : CreateWorld) : w.Clear ↔
    (∀ c ∈ w.calls, c.phase.held = none) ∧ ∀ e ∈ w.sent, e.env.sequence ≤ w.sequence := by
  refine and_congr_left fun _ => ⟨fun h c hc => ?_, fun h i => ?_⟩
  · obtain ⟨i, hi⟩ := List.mem_iff_getElem?.1 hc
    rw [← held_of_phase hi]
    exact h i
  · unfold CreateWorld.held
    cases hi : w.calls[i]? with
    | none => rfl
    | some c => exact h c (List.mem_of_getElem? hi)

instance (w : CreateWorld) : Decidable w.Clear := decidable_of_iff _ (clear_iff w).symm

instance : ∀ (step : CreateStep) (w : CreateWorld), Decidable (step.Alone w)
  | .fetchServerSequence _ _ _, w => inferInstanceAs (Decidable w.Clear)
  | .arrive .., _ | .simulate .., _ | .send .., _ | .poll .., _ | .close _, _ =>
    inferInstanceAs (Decidable True)

instance decidableOneAtATime : ∀ (steps : List CreateStep) (w : CreateWorld),
    Decidable (OneAtATime T contractID steps w)
  | [], _ => inferInstanceAs (Decidable True)
  | step :: steps, w =>
    have := decidableOneAtATime steps (step.apply T contractID w)
    inferInstanceAs (Decidable (_ ∧ _))

/-- The same two requests, the second reading after the first's envelope was applied. -/
def successiveCreations : List CreateStep :=
  [recordedArrival "GA", recordedArrival "GC"] ++ recordedCreateSteps 0 ++ [.close 0]
    ++ recordedCreateSteps 1

theorem create_sequences_successive :
    ((createRun recordedTools "CC" successiveCreations (freshAccount 41)).sent.map
      (·.env.sequence)).Nodup
    ∧ (createRun recordedTools "CC" successiveCreations (freshAccount 41)).sent.length = 2 :=
  ⟨((create_sequences recordedTools "CC" 41 successiveCreations).2 (by decide +kernel)).1,
    by decide +kernel⟩

end Recorded

end TrusTrove
