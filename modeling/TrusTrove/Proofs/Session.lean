import TrusTrove.Wallet

/-!
# When the token of a session is that of its account

Only three events can part token and address: a login that ends after the account changed or the
wallet was disconnected, a connection that ends with another account while a token is held, and,
between its two setters, the watcher adopting another account. Every other setter writes no token
and keeps the address, or clears the token. So a run stays consistent exactly if none of them
happens at the wrong time.
-/

namespace TrusTrove

/-- A token is held only with the address it was issued for. -/
def WalletState.Consistent (s : WalletState) : Prop :=
  ∀ t, s.token = some t → s.address = some t.sub

/-- A login ends with its own account still the session's, and a connection that ends while a token
is held is with the session's account. -/
def WalletEvent.Timely (w : Session) : WalletEvent → Prop
  | connectResolved hook addr =>
    hook ∈ w.connecting → w.store.token ≠ none → w.store.address = some addr
  | verified i _ =>
    ∀ l, w.logins[i]? = some l → l.stage = .verifying → w.store.address = some l.address
  | _ => True

/-- The watcher adopts another account only while no token is held. -/
def WalletEvent.Undisturbed (w : Session) : WalletEvent → Prop
  | watcher change =>
    w.store.connected = true → change.disconnected = false →
      ∀ a, change.address = some a → a ≠ "" → some a ≠ w.store.address → w.store.token = none
  | _ => True

/-- Every step of a run meets a condition on the session before it. -/
def EveryStep (P : Session → WalletEvent → Prop) : List WalletEvent → Session → Prop
  | [], _ => True
  | e :: events, w => P w e ∧ EveryStep P events (e.apply w)

section Setters

variable {s : WalletState}

theorem consistent_of_token (h : s.token = none) : s.Consistent := by
  intro t ht
  rw [h] at ht
  simp at ht

theorem consistent_disconnect : s.disconnect.Consistent := consistent_of_token rfl

theorem consistent_connect_iff (h : s.Consistent) (addr network : String) :
    (s.connect addr network).Consistent ↔ s.token ≠ none → s.address = some addr := by
  unfold WalletState.Consistent WalletState.connect at *
  cases ht : s.token with
  | none => simp
  | some t =>
    have := h t ht
    simp [this, eq_comm]

theorem consistent_setToken_iff {t : Token} :
    (s.setToken (some t)).Consistent ↔ s.address = some t.sub := by
  simp [WalletState.Consistent, WalletState.setToken]

theorem consistent_setAddress_iff {a : String} (h : s.Consistent) (hne : some a ≠ s.address) :
    (s.setAddress (some a)).Consistent ↔ s.token = none := by
  constructor
  · intro h'
    by_contra hn
    obtain ⟨t, ht⟩ := Option.ne_none_iff_exists'.1 hn
    have h1 := h t ht
    have h2 := h' t ht
    simp only [WalletState.setAddress] at h2
    exact hne (h2.trans h1.symm)
  · exact fun ht => consistent_of_token (s := s.setAddress (some a)) ht

end Setters

section Steps

variable {w : Session}

/-- Only the state between the watcher's two setters may hold a token that is not its address's. -/
theorem watcher_states (h : w.store.Consistent) (change : FreighterWalletChange) :
    ((∀ s ∈ passes (onWatcherChange change w.store) w.store, s.Consistent)
        ↔ (WalletEvent.watcher change).Undisturbed w)
      ∧ ((onWatcherChange change w.store).foldl (fun s f => f s) w.store).Consistent := by
  unfold onWatcherChange WalletEvent.Undisturbed
  cases hc : w.store.connected with
  | false => simpa [passes] using h
  | true =>
    cases hd : change.disconnected with
    | true => simp [passes, consistent_disconnect, hd]
    | false =>
      cases ha : change.address.filter fun a => a ≠ "" ∧ some a ≠ w.store.address with
      | none =>
        have hno : ∀ a, change.address = some a → a ≠ "" → some a ≠ w.store.address →
            w.store.token = none := by
          intro a haddr hne hother
          rw [haddr, Option.filter_eq_none_iff] at ha
          simp [hne, hother] at ha
        have hnet : ∀ n, (w.store.setNetwork n).Consistent := fun n => h
        simp only [Bool.not_true, Bool.false_eq_true, if_false, List.nil_append]
        split <;> simpa [passes, hnet, h, hd] using hno
      | some a =>
        obtain ⟨haddr, hcond⟩ := Option.filter_eq_some_iff.1 ha
        simp only [decide_eq_true_eq] at hcond
        have hmid := consistent_setAddress_iff h hcond.2
        have hclear : ∀ s : WalletState, (s.setToken none).Consistent :=
          fun s => consistent_of_token rfl
        have hnet : ∀ (s : WalletState) n, ((s.setToken none).setNetwork n).Consistent :=
          fun s n => consistent_of_token rfl
        simp only [Bool.not_true, Bool.false_eq_true, if_false]
        split <;> simp [passes, hclear, hnet, hmid, haddr, hcond.1, hcond.2, hd]

theorem settled_consistent_iff (e : WalletEvent) (h : w.store.Consistent) :
    (e.apply w).store.Consistent ↔ e.Timely w := by
  unfold WalletEvent.apply
  cases e with
  | render _ | connectWallet _ | login _ | loginAdvanced _ =>
    simpa [WalletEvent.setters, WalletEvent.Timely] using h
  | setRole role =>
    simp only [WalletEvent.setters, WalletEvent.Timely, iff_true]
    exact h
  | reload persistedRole =>
    simp only [WalletEvent.setters, WalletEvent.Timely, iff_true]
    exact consistent_of_token rfl
  | disconnectWallet =>
    simp only [WalletEvent.setters, WalletEvent.Timely, iff_true]
    exact consistent_disconnect (s := w.store)
  | logout =>
    simp only [WalletEvent.setters, WalletEvent.Timely, iff_true]
    exact consistent_disconnect (s := w.store.setToken none)
  | connectResolved hook addr =>
    by_cases hc : hook ∈ w.connecting
    · have hconnect := consistent_connect_iff h addr expectedNetwork
      simpa [WalletEvent.setters, WalletEvent.Timely, hc] using hconnect
    · simpa [WalletEvent.setters, WalletEvent.Timely, hc] using h
  | connectRejected hook =>
    by_cases hc : hook ∈ w.connecting
    · simp [WalletEvent.setters, WalletEvent.Timely, hc, consistent_disconnect]
    · simpa [WalletEvent.setters, WalletEvent.Timely, hc] using h
  | verified i id =>
    simp only [WalletEvent.setters, WalletEvent.Timely]
    cases hl : w.logins[i]? with
    | none => simpa using h
    | some l =>
      by_cases hs : l.stage = .verifying
      · have := consistent_setToken_iff (s := w.store) (t := ⟨l.address, id⟩)
        simpa [hs] using this
      · simpa [hs] using h
  | loginRejected i =>
    simp only [WalletEvent.setters, WalletEvent.Timely, iff_true]
    split_ifs
    · exact consistent_of_token rfl
    · exact h
  | watcher change =>
    simp only [WalletEvent.setters, WalletEvent.Timely, iff_true]
    exact (watcher_states h change).2

theorem passes_single {setters : List (WalletState → WalletState)} {s : WalletState}
    (hlen : setters.length ≤ 1) (h : s.Consistent) :
    (∀ s' ∈ passes setters s, s'.Consistent)
      ↔ (setters.foldl (fun s f => f s) s).Consistent := by
  match setters, hlen with
  | [], _ => simpa [passes] using h
  | [f], _ => simp [passes]

theorem passes_consistent_iff (e : WalletEvent) (h : w.store.Consistent) :
    (∀ s ∈ passes (e.setters w) w.store, s.Consistent) ↔ e.Timely w ∧ e.Undisturbed w := by
  have hsingle (hlen : (e.setters w).length ≤ 1) (hu : e.Undisturbed w) :
      (∀ s ∈ passes (e.setters w) w.store, s.Consistent) ↔ e.Timely w ∧ e.Undisturbed w := by
    rw [passes_single hlen h, and_iff_left hu]
    exact settled_consistent_iff e h
  cases e with
  | watcher change =>
    have hwatcher := watcher_states h change
    simpa [WalletEvent.setters, WalletEvent.Timely] using hwatcher.1
  | logout =>
    have hclear : (w.store.setToken none).Consistent := consistent_of_token rfl
    simp [WalletEvent.setters, WalletEvent.Timely, WalletEvent.Undisturbed, passes, hclear,
      consistent_disconnect]
  | connectResolved hook addr | connectRejected hook | loginRejected i =>
    refine hsingle ?_ trivial
    simp only [WalletEvent.setters]
    split_ifs <;> simp
  | verified i id =>
    refine hsingle ?_ trivial
    simp only [WalletEvent.setters]
    split
    · split_ifs <;> simp
    · simp
  | _ => exact hsingle (by simp [WalletEvent.setters]) trivial

theorem settledStates_head : ∀ (events : List WalletEvent) (w : Session),
    w.store ∈ settledStates events w
  | [], _ => by simp [settledStates]
  | _ :: _, _ => by simp [settledStates]

end Steps

theorem settledStates_consistent_iff : ∀ (events : List WalletEvent) {w : Session},
    w.store.Consistent → ((∀ s ∈ settledStates events w, s.Consistent)
      ↔ EveryStep (fun w e => e.Timely w) events w)
  | [], w, h => by simpa [settledStates, EveryStep] using h
  | e :: events, w, h => by
    simp only [settledStates, EveryStep, List.forall_mem_cons]
    constructor
    · rintro ⟨-, hrest⟩
      have hnext := hrest _ (settledStates_head events _)
      exact ⟨(settled_consistent_iff e h).1 hnext,
        (settledStates_consistent_iff events hnext).1 hrest⟩
    · rintro ⟨htimely, hrest⟩
      have hnext := (settled_consistent_iff e h).2 htimely
      exact ⟨h, (settledStates_consistent_iff events hnext).2 hrest⟩

theorem storeStates_consistent_iff : ∀ (events : List WalletEvent) {w : Session},
    w.store.Consistent → ((∀ s ∈ storeStates events w, s.Consistent)
      ↔ EveryStep (fun w e => e.Timely w ∧ e.Undisturbed w) events w)
  | [], w, h => by simpa [storeStates, EveryStep] using h
  | e :: events, w, h => by
    simp only [storeStates, EveryStep, List.cons_append, List.forall_mem_cons,
      List.forall_mem_append, passes_consistent_iff e h]
    constructor
    · rintro ⟨-, hstep, hrest⟩
      have hnext := (settled_consistent_iff e h).2 hstep.1
      exact ⟨hstep, (storeStates_consistent_iff events hnext).1 hrest⟩
    · rintro ⟨hstep, hrest⟩
      have hnext := (settled_consistent_iff e h).2 hstep.1
      exact ⟨h, hstep, (storeStates_consistent_iff events hnext).2 hrest⟩

/-- In any run from a loaded page, every state of the store that holds a token holds the address it
was issued for exactly if logins and connections end in time and the watcher adopts no account over
a token; the states between the events need only the former. -/
theorem wallet_session (events : List WalletEvent) :
    ((∀ s ∈ storeStates events .initial, s.Consistent)
        ↔ EveryStep (fun w e => e.Timely w ∧ e.Undisturbed w) events .initial)
      ∧ ((∀ s ∈ settledStates events .initial, s.Consistent)
        ↔ EveryStep (fun w e => e.Timely w) events .initial) :=
  ⟨storeStates_consistent_iff events (consistent_of_token rfl),
    settledStates_consistent_iff events (consistent_of_token rfl)⟩

/-- A wallet is connected, logs in, and is disconnected before the server has answered. -/
def lateLogin : List WalletEvent :=
  [.connectWallet 0, .connectResolved 0 "GA", .render 0, .login 0, .loginAdvanced 0,
    .loginAdvanced 0, .disconnectWallet, .verified 0 1]

theorem late_login_parts :
    (sessionRun lateLogin .initial).store.token = some ⟨"GA", 1⟩
      ∧ (sessionRun lateLogin .initial).store.address = none := by
  decide +kernel

/-- Two components connect at once, and the second ends with another account after a login. -/
def twoConnects : List WalletEvent :=
  [.connectWallet 0, .connectWallet 1, .connectResolved 0 "GA", .render 0, .login 0,
    .loginAdvanced 0, .loginAdvanced 0, .verified 0 1, .connectResolved 1 "GB"]

example :
    (sessionRun twoConnects .initial).store.token = some ⟨"GA", 1⟩
      ∧ (sessionRun twoConnects .initial).store.address = some "GB" := by
  decide +kernel

end TrusTrove
