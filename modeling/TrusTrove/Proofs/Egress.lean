import TrusTrove.Netguard

/-!
# A delivery connects to public addresses as long as no host is rebound

The guard judges the answer of its own lookup; the dialler looks the host up again and connects to
any address of that second answer. An address the guard's lookup found is public, since the guard
let the request through. So what an attempt connects to is public, whatever `net/http` picks,
exactly if the second answers add no other address to the first: those of the requests that the
guard and the limit on redirects let through. The dialler is free to reuse connections up to a
request, so each of them is reached whatever the answers before it were.
-/

namespace TrusTrove

variable (net : Network)

/-- The targets the answers redirect to, up to the first that does not. -/
def redirectTargets : List RequestAnswer → List URL
  | .redirect target :: rest => target :: redirectTargets rest
  | _ => []

/-- Every redirect of a chain, up to the `k`th, passes the policy of the client. -/
def Followed (via : ℕ) (targets : List URL) (k : ℕ) : Prop :=
  ∀ j < k, ∀ u ∈ targets[j]?, net.checkRedirect u (via + 1 + j) = none

/-- The answer to the dialler's lookup holds public addresses only. -/
def DialsPublic (via : ℕ) (u : URL) : Prop :=
  ∀ ips ∈ net.lookupIP (.dial via) u.hostname, ∀ ip ∈ ips, isPublicIP ip = true

/-- The URL the guard checks for the request after `via` others: that of the endpoint, then those
redirected to. -/
def checkedURL (endpointURL : String) : ℕ → URL → String
  | 0, _ => endpointURL
  | _ + 1, u => u.string

/-- The guard's lookup for a request found the address. -/
def Checked (via : ℕ) (rawURL : String) (ip : IP) : Prop :=
  ∃ u, net.parseRequestURI rawURL = some u
    ∧ ∃ ips ∈ net.lookupIP (.guard via) u.hostname, ip ∈ ips

/-- Every address of the answers to the dialler's lookups meets a condition, those of the requests
that the guard lets through. -/
def EachDialled (endpointURL : String) (answers : List RequestAnswer)
    (P : ℕ → String → IP → Prop) : Prop :=
  net.isSafeURL (.guard 0) endpointURL = true → ∀ u, net.parse endpointURL = .ok u →
    ∀ k, Followed net 0 (redirectTargets answers) k →
      ∀ t ∈ (u :: redirectTargets answers)[k]?, ∀ ips ∈ net.lookupIP (.dial k) t.hostname,
        ∀ ip ∈ ips, P k (checkedURL endpointURL k t) ip

/-- No host of an attempt is rebound to a forbidden address between the guard's lookup and the
dialler's: what the second answer holds beyond the first is public. -/
def NotRebound (endpointURL : String) (answers : List RequestAnswer) : Prop :=
  EachDialled net endpointURL answers fun via rawURL ip =>
    ¬ Checked net via rawURL ip → isPublicIP ip = true

/-- The dialler's lookups find nothing that the guard's did not. -/
def Stable (endpointURL : String) (answers : List RequestAnswer) : Prop :=
  EachDialled net endpointURL answers (Checked net)

section Client

variable {net}

theorem dial_opened {dialler : Dialler} {via : ℕ} {u : URL} {ip : IP}
    (h : dial net dialler via u = .ok (some ip)) :
    ∃ ips, net.lookupIP (.dial via) u.hostname = some ips ∧ ip ∈ ips := by
  unfold dial at h
  split_ifs at h with hi
  · simp at h
  · split at h
    · simp at h
    · rename_i ips hips
      split at h
      · simp at h
      · rename_i ip' hip
        obtain rfl : ip' = ip := by simpa using h
        exact ⟨ips, hips, List.mem_of_getElem? hip⟩

theorem clientDo_congr {d d' : Dialler} : ∀ (answers : List RequestAnswer) (via : ℕ) (u : URL),
    (∀ k, via ≤ k → d.idle k = d'.idle k ∧ d.pick k = d'.pick k) →
    clientDo net d answers via u = clientDo net d' answers via u
  | answers, via, u, h => by
    have hd : dial net d via u = dial net d' via u := by
      obtain ⟨hi, hp⟩ := h via le_rfl
      simp only [dial, hi, hp]
    unfold clientDo
    rw [hd]
    cases answers with
    | nil => rfl
    | cons a rest =>
      cases a with
      | redirect target =>
        simp only [clientDo_congr rest (via + 1) target fun k hk => h k (by omega)]
      | response statusCode body => rfl
      | failed err => rfl

/-- The first request, and those that a followed redirect leads to. -/
theorem mem_clientDo {dialler : Dialler} {answers : List RequestAnswer} {via : ℕ} {u : URL}
    {ip : IP}
    (h : ip ∈ (clientDo net dialler answers via u).1) :
    dial net dialler via u = .ok (some ip) ∨
      ∃ target rest, answers = .redirect target :: rest
        ∧ net.checkRedirect target (via + 1) = none
        ∧ ip ∈ (clientDo net dialler rest (via + 1) target).1 := by
  unfold clientDo at h
  split at h
  · simp at h
  · rename_i opened ho
    rw [ho]
    cases answers with
    | nil => exact .inl (by simpa using h)
    | cons a rest =>
      cases a with
      | redirect target =>
        cases hc : net.checkRedirect target (via + 1) with
        | none =>
          simp only [hc, List.mem_append] at h
          rcases h with h | h
          · exact .inl (by simpa using h)
          · exact .inr ⟨target, rest, rfl, hc, h⟩
        | some err => exact .inl (by simpa [hc] using h)
      | response statusCode body => exact .inl (by simpa using h)
      | failed err => exact .inl (by simpa using h)

/-- Some dialler connects the first request to any address of the answer. -/
theorem clientDo_opens (answers : List RequestAnswer) {via : ℕ} {u : URL} {ips : List IP} {ip : IP}
    (hips : net.lookupIP (.dial via) u.hostname = some ips) (hip : ip ∈ ips) :
    ∃ dialler, ip ∈ (clientDo net dialler answers via u).1 := by
  obtain ⟨i, hi⟩ := List.mem_iff_getElem?.1 hip
  refine ⟨⟨fun _ => false, fun _ => i⟩, ?_⟩
  have hd : dial net ⟨fun _ => false, fun _ => i⟩ via u = .ok (some ip) := by
    simp [dial, hips, hi]
  unfold clientDo
  rw [hd]
  cases answers with
  | nil => simp
  | cons a rest =>
    cases a with
    | redirect target => cases hc : net.checkRedirect target (via + 1) <;> simp [hc]
    | response statusCode body => simp
    | failed err => simp

/-- What a redirected request connects to, the attempt connects to under a dialler that reuses a
connection for the requests before it. -/
theorem clientDo_redirected {dialler : Dialler} {rest : List RequestAnswer} {via : ℕ}
    {u target : URL}
    {ip : IP} (hc : net.checkRedirect target (via + 1) = none)
    (h : ip ∈ (clientDo net dialler rest (via + 1) target).1) :
    ∃ dialler', ip ∈ (clientDo net dialler' (.redirect target :: rest) via u).1 := by
  let reusing : Dialler := ⟨fun k => if k = via then true else dialler.idle k, dialler.pick⟩
  have hsame : clientDo net dialler rest (via + 1) target
      = clientDo net reusing rest (via + 1) target :=
    clientDo_congr rest (via + 1) target fun k hk => by
      simp [reusing, show k ≠ via by omega]
  refine ⟨reusing, ?_⟩
  unfold clientDo
  simpa [dial, reusing, hc, hsame] using h

/-- The exact condition, request by request. -/
theorem clientDo_public_iff : ∀ (answers : List RequestAnswer) (via : ℕ) (u : URL),
    (∀ dialler, ∀ ip ∈ (clientDo net dialler answers via u).1, isPublicIP ip = true) ↔
      ∀ k, Followed net via (redirectTargets answers) k →
        ∀ t ∈ (u :: redirectTargets answers)[k]?, DialsPublic net (via + k) t
  | answers, via, u => by
    constructor
    · intro h k hf t ht ips hips ip hip
      cases k with
      | zero =>
        obtain rfl : u = t := by simpa using ht
        obtain ⟨dialler, hd⟩ := clientDo_opens answers hips hip
        exact h dialler ip hd
      | succ k =>
        match answers, h, hf, ht with
        | .redirect target :: rest, h, hf, ht =>
          have hc : net.checkRedirect target (via + 1) = none := hf 0 (by omega) target rfl
          refine (clientDo_public_iff rest (via + 1) target).1 (fun dialler ip hip => ?_) k
            (fun j hj t ht => ?_) t ht ips ?_ ip hip
          · obtain ⟨dialler', hd⟩ := clientDo_redirected (u := u) hc hip
            exact h dialler' ip hd
          · have := hf (j + 1) (by omega) t ht
            rwa [show via + 1 + (j + 1) = via + 1 + 1 + j by omega] at this
          · rwa [show via + 1 + k = via + (k + 1) by omega]
        | [], _, _, ht => simp [redirectTargets] at ht
        | .response _ _ :: _, _, _, ht => simp [redirectTargets] at ht
        | .failed _ :: _, _, _, ht => simp [redirectTargets] at ht
    · intro h dialler ip hip
      rcases mem_clientDo hip with hd | ⟨target, rest, rfl, hc, hip⟩
      · obtain ⟨ips, hips, hip⟩ := dial_opened hd
        exact h 0 (fun j hj => absurd hj (by omega)) u rfl ips hips ip hip
      · refine (clientDo_public_iff rest (via + 1) target).2 (fun k hf t ht => ?_) dialler ip hip
        rw [show via + 1 + k = via + (k + 1) by omega]
        refine h (k + 1) (fun j hj t ht => ?_) t ht
        cases j with
        | zero =>
          obtain rfl : target = t := by simpa [redirectTargets] using ht
          exact hc
        | succ j =>
          rw [show via + 1 + (j + 1) = via + 1 + 1 + j by omega]
          exact hf j (by omega) t ht

end Client

section Guard

variable {net} {endpointURL : String} {answers : List RequestAnswer}

theorem isSafeURL_checked {via : ℕ} {rawURL : String}
    (h : net.isSafeURL (.guard via) rawURL = true) {ip : IP} (hip : Checked net via rawURL ip) :
    isPublicIP ip = true := by
  obtain ⟨u, hu, ips, hips, hip⟩ := hip
  unfold Network.isSafeURL at h
  simp only [hu, Option.mem_def.1 hips] at h
  split_ifs at h
  exact List.all_eq_true.1 h ip hip

theorem checkRedirect_safe {req : URL} {via : ℕ} (h : net.checkRedirect req via = none) :
    net.isSafeURL (.guard via) req.string = true := by
  unfold Network.checkRedirect at h
  split_ifs at h with h1 h2
  simpa using h2

/-- What the guard's lookups found for the requests let through is public. -/
theorem EachDialled.public {P : ℕ → String → IP → Prop} (h : EachDialled net endpointURL answers P)
    (hP : ∀ via rawURL ip, P via rawURL ip → ¬ Checked net via rawURL ip → isPublicIP ip = true) :
    EachDialled net endpointURL answers fun _ _ ip => isPublicIP ip = true := by
  intro hsafe u hu k hf t ht ips hips ip hip
  have hchecked : net.isSafeURL (.guard k) (checkedURL endpointURL k t) = true := by
    cases k with
    | zero => exact hsafe
    | succ k =>
      have hc := hf k (by omega) t ht
      rw [show 0 + 1 + k = k + 1 by omega] at hc
      exact checkRedirect_safe hc
  by_cases hfound : Checked net k (checkedURL endpointURL k t) ip
  · exact isSafeURL_checked hchecked hfound
  · exact hP _ _ _ (h hsafe u hu k hf t ht ips hips ip hip) hfound

theorem connects_iff_eachDialled :
    (∀ dialler, ∀ ip ∈ (attemptRequests net dialler endpointURL answers).1, isPublicIP ip = true)
      ↔ EachDialled net endpointURL answers fun _ _ ip => isPublicIP ip = true := by
  unfold EachDialled attemptRequests
  cases hs : net.isSafeURL (.guard 0) endpointURL with
  | false => simp
  | true =>
    cases hp : net.parse endpointURL with
    | error err => simp
    | ok u =>
      simpa [DialsPublic] using clientDo_public_iff answers 0 u

end Guard

/-- Every connection of a delivery attempt is to a public address, whichever addresses of the
answers `net/http` picks and whichever connections it reuses, exactly if no host is rebound to one
that is not; in particular if every second lookup stays within the answer the guard checked. -/
theorem connects_public_iff (endpointURL : String) (answers : List RequestAnswer) :
    ((∀ dialler, ∀ ip ∈ (attemptRequests net dialler endpointURL answers).1,
        isPublicIP ip = true) ↔ NotRebound net endpointURL answers)
      ∧ (Stable net endpointURL answers →
        ∀ dialler, ∀ ip ∈ (attemptRequests net dialler endpointURL answers).1,
          isPublicIP ip = true) := by
  rw [connects_iff_eachDialled]
  refine ⟨⟨fun h hsafe u hu k hf t ht ips hips ip hip _ => ?_, fun h => ?_⟩, fun h => ?_⟩
  · exact h hsafe u hu k hf t ht ips hips ip hip
  · exact h.public fun _ _ _ hnew hno => hnew hno
  · exact h.public fun _ _ _ hfound hno => absurd hfound hno

/-- A host whose first lookup answers with a public address and whose second with the metadata
service's. -/
def rebindingNet : Network where
  parse := fun raw => .ok ⟨raw, raw, "http", "hooks.example"⟩
  parseRequestURI := fun raw => some ⟨raw, raw, "http", "hooks.example"⟩
  parseIP := fun _ => none
  dns
    | .guard _, _ => some [[93, 184, 216, 34]]
    | .dial _, _ => some [[169, 254, 169, 254]]

theorem rebound_host_reached :
    rebindingNet.isSafeURL (.guard 0) "http://hooks.example/hook" = true
      ∧ (attemptRequests rebindingNet ⟨fun _ => false, fun _ => 0⟩ "http://hooks.example/hook"
        [.response 200 ""]).1 = [[169, 254, 169, 254]]
      ∧ isPublicIP [169, 254, 169, 254] = false := by
  decide +kernel

/-- A DNS whose second answers are within the first is stable, where the parsers agree on the host
of a URL. -/
theorem stable_of_lookups {endpointURL : String} {answers : List RequestAnswer}
    (hdns : ∀ via host, ∀ ips ∈ net.lookupIP (.dial via) host, ∀ ip ∈ ips,
      ∃ ips' ∈ net.lookupIP (.guard via) host, ip ∈ ips')
    (hparse : ∀ u, net.parse endpointURL = .ok u →
      ∃ u', net.parseRequestURI endpointURL = some u' ∧ u'.hostname = u.hostname)
    (hstring : ∀ u ∈ redirectTargets answers,
      ∃ u', net.parseRequestURI u.string = some u' ∧ u'.hostname = u.hostname) :
    Stable net endpointURL answers := by
  intro hsafe u hu k hf t ht ips hips ip hip
  have hhost : ∃ u', net.parseRequestURI (checkedURL endpointURL k t) = some u'
      ∧ u'.hostname = t.hostname := by
    cases k with
    | zero =>
      obtain rfl : u = t := by simpa using ht
      exact hparse u hu
    | succ k => exact hstring t (List.mem_of_getElem? ht)
  obtain ⟨u', hu', hname⟩ := hhost
  exact ⟨u', hu', hname ▸ hdns k t.hostname ips hips ip hip⟩

/-- A DNS that answers both lookups alike. -/
def steadyNet : Network := { rebindingNet with dns := fun _ _ => some [[93, 184, 216, 34]] }

theorem connects_public_iff_steady :
    let ips := (attemptRequests steadyNet ⟨fun _ => false, fun _ => 0⟩ "http://hooks.example/hook"
      [.response 200 ""]).1
    ips = [[93, 184, 216, 34]] ∧ ∀ ip ∈ ips, isPublicIP ip = true := by
  intro ips
  have hstable : Stable steadyNet "http://hooks.example/hook" [.response 200 ""] := by
    refine stable_of_lookups steadyNet (fun via host ips hips ip hip => ⟨ips, hips, hip⟩)
      (fun u hu => ?_) ?_
    · cases hu
      exact ⟨_, rfl, rfl⟩
    · simp [redirectTargets]
  exact ⟨by decide +kernel,
    (connects_public_iff steadyNet "http://hooks.example/hook" [.response 200 ""]).2 hstable _⟩

end TrusTrove
