import TrusTrove.Proofs.AuthToken
import TrusTrove.Proofs.Claim
import TrusTrove.Subscriptions

/-!
# Whose webhooks they are

What was answered and claimed says which subscriptions stand, and the rows are those. From this an
event of the log is explained by the events before it alone: a claim is of a subscription that was
created and not deleted, a list is of its caller's, and only the owner of a subscription deletes it.
-/

namespace TrusTrove

open Interaction Sql

section Log

/-- What an event does to the subscriptions that stand. -/
def WebhookEvent.effect : List ApiSubscription → WebhookEvent → List ApiSubscription
  | subs, .answered _ (.created sub) => subs ++ [sub]
  | subs, .answered userAddr (.deleted id) =>
    subs.filter fun sub => !(sub.id = id && sub.userAddress = userAddr)
  | subs, _ => subs

/-- The subscriptions that stand after what has happened. -/
def standing (log : List WebhookEvent) : List ApiSubscription := log.foldl WebhookEvent.effect []

/-- Nobody has deleted the subscription. -/
def Undeleted (log : List WebhookEvent) (id : String) : Prop :=
  ∀ userAddr, .answered userAddr (.deleted id) ∉ log

/-- What an event says of the events before it. -/
def WebhookEvent.Law (before : List WebhookEvent) : WebhookEvent → Prop
  | .answered _ (.error _) => True
  | .answered userAddr (.created sub) => sub.userAddress = userAddr
      ∧ ∀ userAddr' sub', .answered userAddr' (.created sub') ∈ before → sub'.id ≠ sub.id
  | .answered userAddr (.data subs) => subs = (newestSubscriptions ((standing before).filter
      fun sub => sub.userAddress = userAddr)).map ApiSubscription.withoutSecret
  | .answered userAddr (.deleted id) =>
    ∃ sub ∈ standing before, sub.id = id ∧ sub.userAddress = userAddr
  | .claimed c => ∃ sub ∈ standing before, sub.id = c.delivery.subscriptionID
      ∧ sub.url = c.endpointURL ∧ sub.secret = c.endpointSecret

variable {log : List WebhookEvent} {e : WebhookEvent} {sub sub' : ApiSubscription}
  {userAddr userAddr' id : String}

theorem standing_append (log : List WebhookEvent) (e : WebhookEvent) :
    standing (log ++ [e]) = e.effect (standing log) := by
  rw [standing, List.foldl_append]
  rfl

/-- The last event meets its law, and those before it do. -/
theorem past_concat : Past WebhookEvent.Law (log ++ [e]) ↔
    Past WebhookEvent.Law log ∧ e.Law log := by
  refine ⟨fun h => ⟨h.left, h log e [] rfl⟩, fun h => past_append h.1 (past_cons ?_ past_nil)⟩
  rw [List.append_nil]
  exact h.2

theorem created_of_standing (h : Past WebhookEvent.Law log) (hsub : sub ∈ standing log) :
    .answered sub.userAddress (.created sub) ∈ log := by
  induction log using List.reverseRecOn with
  | nil => simp [standing] at hsub
  | append_singleton log e ih =>
    obtain ⟨hlog, he⟩ := past_concat.1 h
    rw [standing_append] at hsub
    refine List.mem_append.2 ?_
    cases e with
    | claimed c => exact .inl (ih hlog hsub)
    | answered userAddr response =>
      cases response with
      | error r => exact .inl (ih hlog hsub)
      | data subs => exact .inl (ih hlog hsub)
      | deleted id => exact .inl (ih hlog (List.mem_filter.1 hsub).1)
      | created sub₀ =>
        rcases List.mem_append.1 hsub with hold | hnew
        · exact .inl (ih hlog hold)
        · obtain rfl := List.mem_singleton.1 hnew
          obtain ⟨rfl, -⟩ := he
          exact .inr (by simp)

/-- A subscription that was deleted was created, by the one who deleted it. -/
theorem created_of_deleted (h : Past WebhookEvent.Law log)
    (hdeleted : .answered userAddr (.deleted id) ∈ log) :
    ∃ sub, .answered userAddr (.created sub) ∈ log ∧ sub.id = id := by
  obtain ⟨before, after, rfl⟩ := List.append_of_mem hdeleted
  obtain ⟨sub, hsub, hid, rfl⟩ := h before _ after rfl
  exact ⟨sub, List.mem_append_left _ (created_of_standing h.left hsub), hid⟩

/-- The subscription with an id is one, of one user. -/
theorem created_unique (h : Past WebhookEvent.Law log)
    (hsub : .answered userAddr (.created sub) ∈ log)
    (hsub' : .answered userAddr' (.created sub') ∈ log) (hid : sub.id = sub'.id) :
    sub = sub' ∧ userAddr = userAddr' := by
  induction log using List.reverseRecOn with
  | nil => cases hsub
  | append_singleton log e ih =>
    obtain ⟨hlog, he⟩ := past_concat.1 h
    rcases List.mem_append.1 hsub with hold | hnew <;>
      rcases List.mem_append.1 hsub' with hold' | hnew'
    · exact ih hlog hold hold'
    · rw [List.mem_singleton] at hnew'
      subst hnew'
      exact absurd hid (he.2 _ _ hold)
    · rw [List.mem_singleton] at hnew
      subst hnew
      exact absurd hid.symm (he.2 _ _ hold')
    · rw [List.mem_singleton] at hnew hnew'
      subst hnew
      simpa [and_comm] using hnew'.symm

/-- Those that stand are those that were created and not deleted. -/
theorem mem_standing (h : Past WebhookEvent.Law log) :
    sub ∈ standing log ↔
      .answered sub.userAddress (.created sub) ∈ log ∧ Undeleted log sub.id := by
  induction log using List.reverseRecOn with
  | nil => simp [standing]
  | append_singleton log e ih =>
    obtain ⟨hlog, he⟩ := past_concat.1 h
    have hcreated := fun hsub : sub ∈ standing (log ++ [e]) => created_of_standing h hsub
    rw [standing_append] at hcreated ⊢
    cases e with
    | claimed c => simpa [WebhookEvent.effect, Undeleted] using ih hlog
    | answered userAddr response =>
      cases response with
      | error r => simpa [WebhookEvent.effect, Undeleted] using ih hlog
      | data subs => simpa [WebhookEvent.effect, Undeleted] using ih hlog
      | created sub₀ =>
        have hundeleted : Undeleted (log ++ [.answered userAddr (.created sub₀)]) sub.id ↔
            Undeleted log sub.id := by simp [Undeleted]
        rw [hundeleted]
        refine ⟨fun hsub => ⟨hcreated hsub, ?_⟩, fun hsub => ?_⟩
        · rcases List.mem_append.1 hsub with hold | hnew
          · exact ((ih hlog).1 hold).2
          · intro userAddr' hdeleted
            obtain ⟨sub', hsub', hid⟩ := created_of_deleted hlog hdeleted
            rw [List.mem_singleton.1 hnew] at hid
            exact he.2 _ _ hsub' hid
        · rcases List.mem_append.1 hsub.1 with hold | hnew
          · exact List.mem_append_left _ ((ih hlog).2 ⟨hold, hsub.2⟩)
          · simp only [List.mem_singleton, WebhookEvent.answered.injEq,
              WebhookResponse.created.injEq] at hnew
            exact List.mem_append_right _ (List.mem_singleton.2 hnew.2)
      | deleted id =>
        obtain ⟨sub₀, hsub₀, rfl, rfl⟩ := he
        have hcreated₀ := created_of_standing hlog hsub₀
        refine ⟨fun hsub => ⟨hcreated hsub, ?_⟩, fun hsub => ?_⟩
        · obtain ⟨hold, hkept⟩ := List.mem_filter.1 hsub
          obtain ⟨hcreated, hundeleted⟩ := (ih hlog).1 hold
          intro userAddr' hdeleted
          rcases List.mem_append.1 hdeleted with hdeleted | hdeleted
          · exact hundeleted userAddr' hdeleted
          · simp only [List.mem_singleton, WebhookEvent.answered.injEq,
              WebhookResponse.deleted.injEq] at hdeleted
            obtain ⟨rfl, -⟩ := created_unique hlog hcreated hcreated₀ hdeleted.2
            simp at hkept
        · have hne : sub.id ≠ sub₀.id := by
            intro hid
            exact hsub.2 sub₀.userAddress (by simp [hid])
          refine List.mem_filter.2 ⟨(ih hlog).2 ⟨by simpa using hsub.1, fun userAddr' hdel => ?_⟩,
            by simp [hne]⟩
          exact hsub.2 userAddr' (List.mem_append_left _ hdel)

/-- Only who created a subscription deletes it. -/
theorem undeleted_iff (h : Past WebhookEvent.Law log)
    (hsub : .answered userAddr (.created sub) ∈ log) :
    Undeleted log sub.id ↔ .answered userAddr (.deleted sub.id) ∉ log := by
  refine ⟨fun hundeleted => hundeleted userAddr, fun hkept userAddr' hdeleted => ?_⟩
  obtain ⟨sub', hsub', hid⟩ := created_of_deleted h hdeleted
  obtain ⟨-, rfl⟩ := created_unique h hsub' hsub hid
  exact hkept hdeleted

theorem standing_nodup (h : Past WebhookEvent.Law log) :
    ((standing log).map (·.id)).Nodup := by
  induction log using List.reverseRecOn with
  | nil => exact List.nodup_nil
  | append_singleton log e ih =>
    obtain ⟨hlog, he⟩ := past_concat.1 h
    rw [standing_append]
    cases e with
    | claimed c => exact ih hlog
    | answered userAddr response =>
      cases response with
      | error r => exact ih hlog
      | data subs => exact ih hlog
      | deleted id => exact (ih hlog).sublist (List.filter_sublist.map _)
      | created sub₀ =>
        rw [WebhookEvent.effect, List.map_append, List.map_singleton, ← List.concat_eq_append]
        refine (ih hlog).concat fun hmem => ?_
        obtain ⟨sub, hsub, hid⟩ := List.mem_map.1 hmem
        exact he.2 _ _ (created_of_standing hlog hsub) hid

/-- What a list shows: the subscriptions of the caller that stand, newest first. -/
theorem data_law {subs : List ApiSubscription} (h : Past WebhookEvent.Law log)
    (hdata : (WebhookEvent.answered userAddr (.data subs)).Law log) :
    (∀ s, s ∈ subs ↔ ∃ sub, .answered userAddr (.created sub) ∈ log
        ∧ .answered userAddr (.deleted sub.id) ∉ log ∧ s = sub.withoutSecret)
      ∧ (subs.map (·.id)).Nodup ∧ subs.Pairwise fun a b => b.createdAt ≤ a.createdAt := by
  obtain rfl : subs = _ := hdata
  refine ⟨fun s => ?_, ?_, ?_⟩
  · simp only [newestSubscriptions, List.mem_map, List.mem_insertionSort, List.mem_filter,
      decide_eq_true_eq]
    constructor
    · rintro ⟨sub, ⟨hsub, rfl⟩, rfl⟩
      obtain ⟨hcreated, hundeleted⟩ := (mem_standing h).1 hsub
      exact ⟨sub, hcreated, hundeleted _, rfl⟩
    · rintro ⟨sub, hcreated, hkept, rfl⟩
      obtain ⟨before, after, rfl⟩ := List.append_of_mem hcreated
      obtain ⟨rfl, -⟩ := h before _ after rfl
      exact ⟨sub, ⟨(mem_standing h).2 ⟨hcreated, (undeleted_iff h hcreated).2 hkept⟩, rfl⟩, rfl⟩
  · rw [List.map_map]
    have hfilter : (((standing log).filter fun sub => sub.userAddress = userAddr).map
        (·.id)).Nodup := (standing_nodup h).sublist (List.filter_sublist.map _)
    exact ((List.perm_insertionSort _ _).map ApiSubscription.id).nodup_iff.2 hfilter
  · rw [List.pairwise_map]
    exact List.pairwise_insertionSort _ _

/-- Claims change nothing of what stands. -/
theorem past_claimed {claimed : List ClaimedDelivery} (h : Past WebhookEvent.Law log)
    (hclaimed : ∀ c ∈ claimed, (WebhookEvent.claimed c).Law log) :
    Past WebhookEvent.Law (log ++ claimed.map .claimed)
      ∧ standing (log ++ claimed.map .claimed) = standing log := by
  induction claimed generalizing log with
  | nil => simpa using h
  | cons c claimed ih =>
    have hstanding : standing (log ++ [.claimed c]) = standing log := standing_append _ _
    have hlaw : ∀ c' ∈ claimed, (WebhookEvent.claimed c').Law (log ++ [.claimed c]) := by
      intro c' hc'
      rw [WebhookEvent.Law, hstanding]
      exact hclaimed c' (List.mem_cons_of_mem _ hc')
    have hrest := ih (past_concat.2 ⟨h, hclaimed c List.mem_cons_self⟩) hlaw
    rw [hstanding, List.append_assoc] at hrest
    exact hrest

end Log

section Requests

variable {parseUUID : String → Option String} {env : WebhookEnv} {userAddr : String}
  {t t' : WebhookTables} {response : WebhookResponse}

/-- What a request answers and writes, in four cases. -/
inductive WebhookRequest.Serves (env : WebhookEnv) (userAddr : String) (t : WebhookTables) :
    WebhookResponse → WebhookTables → Prop
  | error (r : Response) : Serves env userAddr t (.error r) t
  | created (row : SubscriptionRow) (hid : row.id = env.id) (huser : row.userAddress = userAddr) :
    Serves env userAddr t (.created row.scan)
      { t with subscriptions := t.subscriptions.insertNew row }
  | data : Serves env userAddr t
      (.data ((newestSubscriptions ((t.subscriptions.rows.map SubscriptionRow.scan).filter
        fun sub => sub.userAddress = userAddr)).map ApiSubscription.withoutSecret)) t
  | deleted (row : SubscriptionRow) (hrow : row ∈ t.subscriptions.rows)
    (huser : row.userAddress = userAddr) :
    Serves env userAddr t (.deleted row.id) (deleteWebhookSub row.id userAddr false t).2

theorem createWebhookSub_cases (userAddr u secret : String) (eventTypes : List String)
    (id : String) (now : ℤ) (fails : Bool) (t : WebhookTables) :
    (∃ e, createWebhookSub userAddr u secret eventTypes id now fails t = (.error e, t)) ∨
      ∃ row : SubscriptionRow, row.id = id ∧ row.userAddress = userAddr
        ∧ createWebhookSub userAddr u secret eventTypes id now fails t =
          (.ok row.scan, { t with subscriptions := t.subscriptions.insertNew row }) := by
  unfold createWebhookSub
  split_ifs
  · exact .inl ⟨_, rfl⟩
  · exact .inl ⟨_, rfl⟩
  · exact .inr ⟨_, rfl, rfl, rfl⟩

theorem handleCreateWebhook_serves (body : Except BodyError CreateWebhookRequest)
    (h : handleCreateWebhook env userAddr body t = (response, t')) :
    WebhookRequest.Serves env userAddr t response t' := by
  unfold handleCreateWebhook at h
  cases body with
  | error e =>
    cases h
    exact .error _
  | ok req =>
    simp only at h
    split_ifs at h
    · cases h
      exact .error _
    · cases h
      exact .error _
    · cases h
      exact .error _
    · cases hsecret : env.secret with
      | error e =>
        rw [hsecret] at h
        cases h
        exact .error _
      | ok secret =>
        rw [hsecret] at h
        simp only at h
        rcases createWebhookSub_cases userAddr req.url secret req.eventTypes env.id env.now
          env.fails t with ⟨e, he⟩ | ⟨row, hid, huser, hrow⟩
        · rw [he] at h
          cases h
          exact .error _
        · rw [hrow] at h
          cases h
          exact .created row hid huser

theorem handleGetWebhooks_serves (h : handleGetWebhooks env userAddr t = (response, t')) :
    WebhookRequest.Serves env userAddr t response t' := by
  unfold handleGetWebhooks getWebhookSubs at h
  split_ifs at h
  · cases h
    exact .error _
  · cases h
    exact .data

theorem handleDeleteWebhook_serves (idStr : String)
    (h : handleDeleteWebhook parseUUID env userAddr idStr t = (response, t')) :
    WebhookRequest.Serves env userAddr t response t' := by
  unfold handleDeleteWebhook at h
  cases hid : parseUUID idStr with
  | none =>
    rw [hid] at h
    cases h
    exact .error _
  | some id =>
    rw [hid] at h
    simp only at h
    by_cases hfails : env.fails = true
    · simp only [deleteWebhookSub, hfails, if_true, Prod.mk.injEq] at h
      obtain ⟨rfl, rfl⟩ := h
      exact .error _
    · rw [Bool.not_eq_true] at hfails
      rw [hfails] at h
      rcases hhit : t.subscriptions.rows.filter
        (fun row => row.id = id && row.userAddress = userAddr) with _ | ⟨row, rows⟩
      · have hnone := List.filter_eq_nil_iff.1 hhit
        have hsubs := Table.deleteWhere_eq_self (t := t.subscriptions)
          (p := fun row => row.id = id && row.userAddress = userAddr)
          fun row hrow => Bool.eq_false_of_not_eq_true (hnone row hrow)
        have hdels := Table.deleteWhere_eq_self (t := t.deliveries)
          (p := fun d => ([] : List String).contains d.subscriptionID) fun d _ => by simp
        simp only [deleteWebhookSub, Bool.false_eq_true, if_false, hhit, List.map_nil,
          List.length_nil, if_true, Prod.mk.injEq, hsubs, hdels] at h
        obtain ⟨rfl, rfl⟩ := h
        exact .error _
      · have hrow : row ∈ t.subscriptions.rows.filter
            (fun row => row.id = id && row.userAddress = userAddr) := by simp [hhit]
        obtain ⟨hrow, hboth⟩ := List.mem_filter.1 hrow
        simp only [Bool.and_eq_true, decide_eq_true_eq] at hboth
        have hafter : t' = (deleteWebhookSub id userAddr false t).2 ∧ response = .deleted id := by
          simp only [deleteWebhookSub, Bool.false_eq_true, if_false, hhit, List.map_cons,
            List.length_cons, Nat.succ_ne_zero, Prod.mk.injEq] at h
          simp only [deleteWebhookSub, Bool.false_eq_true, if_false, hhit, List.map_cons]
          exact ⟨h.2.symm, h.1.symm⟩
        obtain ⟨rfl, rfl⟩ := hafter
        rw [← hboth.1]
        exact .deleted row hrow hboth.2

theorem WebhookRequest.handle_serves (req : WebhookRequest)
    (h : req.handle parseUUID env userAddr t = (response, t')) :
    WebhookRequest.Serves env userAddr t response t' := by
  cases req with
  | create body => exact handleCreateWebhook_serves body h
  | get => exact handleGetWebhooks_serves h
  | delete idStr => exact handleDeleteWebhook_serves idStr h

end Requests

section Run

/-- A delivery references a subscription. -/
def WebhookTables.Referenced (t : WebhookTables) : Prop :=
  ∀ k ∈ t.deliveries.rows.map (·.key), k.1 ∈ t.subscriptions.rows.map (·.id)

structure WebhookInv {Hash : Type} (w : WebhookWorld Hash) : Prop where
  rows : w.tables.subscriptions.rows.map SubscriptionRow.scan = standing w.log
  referenced : w.tables.Referenced
  log : Past WebhookEvent.Law w.log
  callers : ∀ c ∈ w.calls, ∃ a ∈ w.api.admitted, a.address = c.1
  answered : ∀ userAddr response, .answered userAddr response ∈ w.log →
    ∃ a ∈ w.api.admitted, a.address = userAddr

namespace WebhookTables.Referenced

variable {t : WebhookTables}

theorem created (h : t.Referenced) (row : SubscriptionRow) :
    Referenced { t with subscriptions := t.subscriptions.insertNew row } := by
  intro k hk
  have hold := h k hk
  simp only [Table.insertNew]
  split_ifs
  · exact hold
  · rw [List.map_append]
    exact List.mem_append_left _ hold

theorem deleted (h : t.Referenced) (id userAddr : String) :
    Referenced (deleteWebhookSub id userAddr false t).2 := by
  intro k hk
  obtain ⟨d, hd, rfl⟩ := List.mem_map.1 hk
  simp only [deleteWebhookSub, Bool.false_eq_true, if_false] at hd ⊢
  obtain ⟨hd, hkept⟩ := Table.mem_deleteWhere.1 hd
  obtain ⟨row, hrow, hid⟩ := List.mem_map.1 (h _ (List.mem_map_of_mem hd))
  refine List.mem_map.2 ⟨row, Table.mem_deleteWhere.2 ⟨hrow, ?_⟩, hid⟩
  by_contra hhit
  rw [Bool.not_eq_false] at hhit
  have hgone : d.subscriptionID ∈ (t.subscriptions.rows.filter fun row : SubscriptionRow =>
      row.id = id && row.userAddress = userAddr).map (·.id) :=
    List.mem_map.2 ⟨row, List.mem_filter.2 ⟨hrow, hhit⟩, hid⟩
  simp [hgone] at hkept

theorem createWebhookDelivery (h : t.Referenced) (d : WebhookDelivery) :
    (t.createWebhookDelivery d).Referenced := by
  unfold WebhookTables.createWebhookDelivery
  split
  · exact h
  · rename_i row hrow
    intro k hk
    simp only [Table.insertNew] at hk
    split_ifs at hk
    · exact h k hk
    · rw [List.map_append] at hk
      rcases List.mem_append.1 hk with hold | hnew
      · exact h k hold
      · rw [List.map_singleton, List.mem_singleton] at hnew
        have hmem := List.mem_map_of_mem (f := SubscriptionRow.id) (Table.mem_of_find? hrow)
        rw [Table.key_of_find? hrow] at hmem
        rw [hnew]
        exact hmem

theorem updateWhere (h : t.Referenced) (p : WebhookDelivery → Bool)
    (f : WebhookDelivery → WebhookDelivery) (hf : ∀ d, (f d).key = d.key) :
    Referenced { t with deliveries := t.deliveries.updateWhere p f hf } := by
  intro k hk
  rw [Table.map_key_updateWhere] at hk
  exact h k hk

end WebhookTables.Referenced

section Claim

variable {t t' : WebhookTables} {limit lockFor now : ℤ} {locked : WebhookDelivery → Bool}
  {claimed : List ClaimedDelivery}

/-- A claim is of a row and its subscription, and leaves the subscriptions. -/
theorem claimDeliveries_ok (h : claimDeliveries limit lockFor now locked t = (claimed, t')) :
    t'.subscriptions = t.subscriptions ∧ (t.Referenced → t'.Referenced)
      ∧ ∀ c ∈ claimed, ∃ row ∈ t.subscriptions.rows, row.id = c.delivery.subscriptionID
        ∧ row.targetURL = c.endpointURL ∧ row.signingSecret = c.endpointSecret := by
  unfold claimDeliveries at h
  cases hclaim : claimPendingDeliveries (t.subscriptions.rows.map SubscriptionRow.subscription)
      limit lockFor now locked t.deliveries with
  | error e =>
    rw [hclaim] at h
    cases h
    exact ⟨rfl, id, by simp⟩
  | ok r =>
    obtain ⟨taken, deliveries⟩ := r
    rw [hclaim] at h
    cases h
    refine ⟨rfl, fun href => ?_, fun c hc => ?_⟩
    · unfold claimPendingDeliveries at hclaim
      by_cases hlimit : limit ≤ 0
      · rw [if_pos hlimit] at hclaim
        cases hclaim
      · rw [if_neg hlimit] at hclaim
        cases hclaim
        exact href.updateWhere _ _ _
    · obtain ⟨d, -, hd⟩ := List.mem_filterMap.1 hc
      obtain ⟨row, hrow, rfl⟩ := Option.map_eq_some_iff.1 hd
      exact ⟨row, Table.mem_of_find? hrow, Table.key_of_find? hrow, rfl, rfl⟩

end Claim

variable {Hash : Type} {w : WebhookWorld Hash}

namespace WebhookInv

theorem init (clock : ℤ) : WebhookInv (.init Hash clock) where
  rows := rfl
  referenced := by simp [WebhookTables.Referenced, WebhookWorld.init, Table.empty]
  log := past_nil
  callers := by simp [WebhookWorld.init]
  answered := by simp [WebhookWorld.init]

theorem api (h : WebhookInv w) {api : ApiWorld Hash} (hadmitted : w.api.admitted ⊆ api.admitted) :
    WebhookInv { w with api := api } where
  rows := h.rows
  referenced := h.referenced
  log := h.log
  callers := fun c hc => (h.callers c hc).imp fun _ ha => ⟨hadmitted ha.1, ha.2⟩
  answered := fun userAddr response he =>
    (h.answered userAddr response he).imp fun _ ha => ⟨hadmitted ha.1, ha.2⟩

theorem scan_standing (h : WebhookInv w) {row : SubscriptionRow}
    (hrow : row ∈ w.tables.subscriptions.rows) : row.scan ∈ standing w.log :=
  h.rows ▸ List.mem_map_of_mem hrow

/-- An answer is by the law, and what is written agrees with it. -/
theorem served (h : WebhookInv w) {env : WebhookEnv} {userAddr : String}
    {response : WebhookResponse} {t' : WebhookTables}
    (hfresh : ∀ userAddr sub, .answered userAddr (.created sub) ∈ w.log → sub.id ≠ env.id)
    (hserves : WebhookRequest.Serves env userAddr w.tables response t') :
    (WebhookEvent.answered userAddr response).Law w.log
      ∧ t'.subscriptions.rows.map SubscriptionRow.scan =
        (WebhookEvent.answered userAddr response).effect (standing w.log)
      ∧ t'.Referenced := by
  cases hserves with
  | error r => exact ⟨trivial, h.rows, h.referenced⟩
  | data =>
    refine ⟨?_, h.rows, h.referenced⟩
    rw [WebhookEvent.Law, h.rows]
  | created row hid huser =>
    have hnew : row.id ∉ w.tables.subscriptions.rows.map (·.id) := by
      intro hmem
      obtain ⟨old, hold, hsame⟩ := List.mem_map.1 hmem
      exact hfresh _ _ (created_of_standing h.log (h.scan_standing hold)) (hsame.trans hid)
    refine ⟨⟨huser, fun userAddr' sub' hsub' => ?_⟩, ?_, h.referenced.created row⟩
    · exact (hfresh userAddr' sub' hsub').trans_eq hid.symm
    · rw [Table.insertNew, dif_neg hnew, List.map_append, h.rows]
      rfl
  | deleted row hrow huser =>
    refine ⟨⟨row.scan, h.scan_standing hrow, rfl, huser⟩, ?_, h.referenced.deleted row.id userAddr⟩
    rw [WebhookEvent.effect, ← h.rows, List.filter_map]
    rfl

theorem answer (h : WebhookInv w) {env : WebhookEnv} {userAddr : String}
    {response : WebhookResponse} {t' : WebhookTables} {calls : List (String × WebhookRequest)}
    (hcalls : calls ⊆ w.calls) (huser : ∃ a ∈ w.api.admitted, a.address = userAddr)
    (hfresh : ∀ userAddr sub, .answered userAddr (.created sub) ∈ w.log → sub.id ≠ env.id)
    (hserves : WebhookRequest.Serves env userAddr w.tables response t') :
    WebhookInv { w with
      tables := t', calls := calls, log := w.log ++ [.answered userAddr response] } := by
  obtain ⟨hlaw, hstanding, href⟩ := h.served hfresh hserves
  refine ⟨hstanding.trans (standing_append _ _).symm, href, past_concat.2 ⟨h.log, hlaw⟩,
    fun c hc => h.callers c (hcalls hc), fun userAddr' response' he => ?_⟩
  rcases List.mem_append.1 he with hold | hnew
  · exact h.answered userAddr' response' hold
  · simp only [List.mem_singleton, WebhookEvent.answered.injEq] at hnew
    exact hnew.1 ▸ huser

theorem claim (h : WebhookInv w) {limit lockFor now : ℤ} {locked : WebhookDelivery → Bool}
    {claimed : List ClaimedDelivery} {t' : WebhookTables}
    (hclaim : claimDeliveries limit lockFor now locked w.tables = (claimed, t')) :
    WebhookInv { w with tables := t', log := w.log ++ claimed.map .claimed } := by
  obtain ⟨hsubs, href, hrows⟩ := claimDeliveries_ok hclaim
  have hlaw : ∀ c ∈ claimed, (WebhookEvent.claimed c).Law w.log := by
    intro c hc
    obtain ⟨row, hrow, hid, hurl, hsecret⟩ := hrows c hc
    exact ⟨row.scan, h.scan_standing hrow, hid, hurl, hsecret⟩
  obtain ⟨hlog, hstanding⟩ := past_claimed h.log hlaw
  refine ⟨?_, href h.referenced, hlog, h.callers, fun userAddr response he => ?_⟩
  · rw [hstanding, ← h.rows, hsubs]
  · rcases List.mem_append.1 he with hold | hnew
    · exact h.answered userAddr response hold
    · simp at hnew

end WebhookInv

variable {Signature : Type} {K : Txnbuild Hash Signature} {J : Jwt} {C : ApiConfig}
  {parseUUID : String → Option String}

/-- Who is let through has signed a challenge. -/
theorem ApiReachable.admitted_signed {w : ApiWorld Hash}
    (hinj : ∀ tx tx' txHash, K.hash C.passphrase tx = .ok txHash →
      K.hash C.passphrase tx' = .ok txHash → tx = tx')
    (hexpiry : J.ChecksExpiry) (hw : ApiReachable K J C w) {a : Admission} (ha : a ∈ w.admitted) :
    ∃ c ∈ w.auth.issued, c.clientAddr = a.address
      ∧ ∃ txHash, K.hash C.passphrase c.tx = .ok txHash ∧ (a.address, txHash) ∈ w.auth.signed := by
  obtain ⟨hauth, h⟩ := hw.inv hinj hexpiry
  obtain ⟨t, ht, hsub, -, -⟩ := h.admitted a ha
  have hsound := h.tokens t ht
  obtain ⟨c, hc, -, -, -, haddr, txHash, hhash, hsigned⟩ :=
    (hauth.inv hinj).redeemed t.redemption hsound.redeemed
  have hclient : t.redemption.clientAddr = a.address := Option.some.inj (hsound.sub.symm.trans hsub)
  rw [hclient] at haddr
  exact ⟨c, hc, haddr.symm, txHash, hhash, haddr.symm ▸ hsigned⟩

theorem ApiStep.apply_admitted (step : ApiStep Hash) (w : ApiWorld Hash) :
    w.admitted ⊆ (step.apply K J C w).admitted := by
  cases step <;> simp only [ApiStep.apply]
  all_goals (repeat' split) <;> simp [ApiWorld.challenge, ApiWorld.tick]

theorem WebhookReachable.of_api {api : ApiWorld Hash} (h : ApiReachable K J C api) :
    WebhookReachable K J C parseUUID ⟨api, ⟨.empty, .empty⟩, [], []⟩ := by
  induction h with
  | init clock h => exact .init clock h
  | step step hw h ih => exact ih.step (.api step) h

/-- A header that is let through may be sent again. -/
theorem ApiStep.authenticate_again {api : ApiWorld Hash} {authHeader userAddr : String} {now : ℤ}
    (h : authMiddleware J C.jwtSecret authHeader now = .ok userAddr)
    (hstep : (ApiStep.authenticate authHeader now).Allowed K J C api) :
    (ApiStep.authenticate authHeader now).Allowed K J C
      ((ApiStep.authenticate authHeader now).apply K J C api) := by
  rw [ApiStep.authenticate_apply h]
  exact ⟨le_rfl, hstep.2⟩

/-- A request that is let through is a call of its user. -/
theorem WebhookReachable.request {api : ApiWorld Hash} {tables : WebhookTables}
    {calls : List (String × WebhookRequest)} {log : List WebhookEvent}
    {authHeader userAddr : String} {now : ℤ}
    (hw : WebhookReachable K J C parseUUID ⟨api, tables, calls, log⟩)
    (h : authMiddleware J C.jwtSecret authHeader now = .ok userAddr)
    (hstep : (ApiStep.authenticate authHeader now).Allowed K J C api) (req : WebhookRequest) :
    WebhookReachable K J C parseUUID ⟨(ApiStep.authenticate authHeader now).apply K J C api, tables,
      calls ++ [(userAddr, req)], log⟩ := by
  have hrequest := hw.step (.request authHeader now req) hstep
  simp only [WebhookStep.apply, h] at hrequest
  exact hrequest

theorem WebhookReachable.inv (hw : WebhookReachable K J C parseUUID w) :
    ApiReachable K J C w.api ∧ WebhookInv w := by
  induction hw with
  | init clock h => exact ⟨.init clock h, .init clock⟩
  | step step hw hstep ih =>
    obtain ⟨hapi, hinv⟩ := ih
    cases step with
    | api step => exact ⟨hapi.step step hstep, hinv.api (step.apply_admitted _)⟩
    | request authHeader now req =>
      have hapi' := hapi.step (.authenticate authHeader now) hstep
      have hinv' := hinv.api (ApiStep.apply_admitted (K := K) (J := J) (C := C)
        (.authenticate authHeader now) _)
      simp only [WebhookStep.apply]
      split
      · exact ⟨hapi', hinv'⟩
      · rename_i userAddr hauth
        refine ⟨hapi', { hinv' with callers := fun c hc => ?_ }⟩
        rcases List.mem_append.1 hc with hold | hnew
        · exact hinv'.callers c hold
        · obtain rfl := List.mem_singleton.1 hnew
          rw [ApiStep.authenticate_apply hauth]
          exact ⟨⟨userAddr, now⟩, by simp, rfl⟩
    | serve i env =>
      simp only [WebhookStep.apply]
      split
      · exact ⟨hapi, hinv⟩
      · rename_i userAddr req hi
        exact ⟨hapi, hinv.answer (List.eraseIdx_sublist ..).subset
          (hinv.callers _ (List.mem_of_getElem? hi)) hstep (req.handle_serves rfl)⟩
    | enqueue d =>
      refine ⟨hapi, { hinv with
        rows := ?_, referenced := hinv.referenced.createWebhookDelivery d }⟩
      refine Eq.trans ?_ hinv.rows
      simp only [WebhookStep.apply, WebhookTables.createWebhookDelivery]
      split <;> rfl
    | claim limit lockFor now locked => exact ⟨hapi, hinv.claim rfl⟩
    | record d result now =>
      exact ⟨hapi, { hinv with referenced := hinv.referenced.updateWhere _ _ _ }⟩

/-- However requests, listener and workers interleave: a worker is only given a delivery of a
subscription that its owner created and nobody has deleted, with the endpoint and the secret of that
subscription; the owner signed a challenge issued for its address; and of a subscription that was
deleted no delivery stays in the queue. -/
theorem claimed_subscription
    (hinj : ∀ tx tx' txHash, K.hash C.passphrase tx = .ok txHash →
      K.hash C.passphrase tx' = .ok txHash → tx = tx')
    (hexpiry : J.ChecksExpiry) (hw : WebhookReachable K J C parseUUID w) :
    (∀ before c after, w.log = before ++ .claimed c :: after →
        ∃ sub, .answered sub.userAddress (.created sub) ∈ before ∧ Undeleted before sub.id
          ∧ sub.id = c.delivery.subscriptionID ∧ sub.url = c.endpointURL
          ∧ sub.secret = c.endpointSecret
          ∧ ∃ ch ∈ w.api.auth.issued, ch.clientAddr = sub.userAddress
            ∧ ∃ txHash, K.hash C.passphrase ch.tx = .ok txHash
              ∧ (sub.userAddress, txHash) ∈ w.api.auth.signed)
      ∧ ∀ d ∈ w.tables.deliveries.rows, ∃ sub, .answered sub.userAddress (.created sub) ∈ w.log
          ∧ Undeleted w.log sub.id ∧ sub.id = d.subscriptionID := by
  obtain ⟨hapi, hinv⟩ := hw.inv
  refine ⟨fun before c after hlog => ?_, fun d hd => ?_⟩
  · have hpast := hinv.log
    rw [hlog] at hpast
    obtain ⟨sub, hsub, hid, hurl, hsecret⟩ := hpast before _ after rfl
    obtain ⟨hcreated, hundeleted⟩ := (mem_standing hpast.left).1 hsub
    obtain ⟨a, ha, haddress⟩ := hinv.answered sub.userAddress (.created sub)
      (hlog ▸ List.mem_append_left _ hcreated)
    obtain ⟨ch, hch, hclient, txHash, hhash, hsigned⟩ := hapi.admitted_signed hinj hexpiry ha
    exact ⟨sub, hcreated, hundeleted, hid, hurl, hsecret, ch, hch, hclient.trans haddress, txHash,
      hhash, haddress ▸ hsigned⟩
  · obtain ⟨row, hrow, hid⟩ := List.mem_map.1 (hinv.referenced _ (List.mem_map_of_mem hd))
    obtain ⟨hcreated, hundeleted⟩ := (mem_standing hinv.log).1 (hinv.scan_standing hrow)
    exact ⟨row.scan, hcreated, hundeleted, hid⟩

/-- A user is shown, without their secrets, the subscriptions it created and has not deleted, each
once and newest first, whatever other users do. -/
theorem listed_subscriptions (hw : WebhookReachable K J C parseUUID w)
    {before after : List WebhookEvent} {userAddr : String} {subs : List ApiSubscription}
    (hlog : w.log = before ++ .answered userAddr (.data subs) :: after) :
    (∀ s, s ∈ subs ↔ ∃ sub, .answered userAddr (.created sub) ∈ before
        ∧ .answered userAddr (.deleted sub.id) ∉ before ∧ s = sub.withoutSecret)
      ∧ (subs.map (·.id)).Nodup ∧ subs.Pairwise fun a b => b.createdAt ≤ a.createdAt := by
  have hpast := hw.inv.2.log
  rw [hlog] at hpast
  exact data_law hpast.left (hpast before _ after rfl)

end Run

section Recorded

/-- A network with one host, at a public address. -/
def hooksNet : Network where
  parse := fun raw => .ok ⟨raw, raw, "https", "hooks.example"⟩
  parseRequestURI := fun raw => some ⟨raw, raw, "https", "hooks.example"⟩
  parseIP := fun _ => none
  dns := fun _ _ => some [[93, 184, 216, 34]]

def recordedHooks (id : String) (now : ℤ) : WebhookEnv where
  net := hooksNet
  secret := .ok "5f0d8a3c"
  id := id
  now := now
  fails := false

/-- The subscription of the recorded client. -/
def recordedSubscription : ApiSubscription where
  id := "4f9c6d1e-6a53-4f0e-9c59-0e2f8f1b7a11"
  userAddress := recordedClient
  url := "https://hooks.example/trusttrove"
  secret := "5f0d8a3c"
  eventTypes := ["pool.deposit"]
  createdAt := 1767225663 * 10 ^ 9

def recordedDelivery : WebhookDelivery :=
  newDelivery recordedSubscription.id "pool.deposit" "e1" ⟨schemaVersion, .poolDeposit, "e1",
    1767225664, 101, "", .generic []⟩ (1767225664 * 10 ^ 9)

/-- The client, let through, is served, an event is fanned out, a worker claims its delivery, and
the client lists what it has. -/
def recordedWebhookSteps : List (WebhookStep String) :=
  [.serve 0 (recordedHooks recordedSubscription.id (1767225663 * 10 ^ 9)),
    .enqueue recordedDelivery,
    .claim 10 (60 * 10 ^ 9) (1767225665 * 10 ^ 9) (fun _ => false),
    .serve 0 (recordedHooks "" (1767225666 * 10 ^ 9))]

/-- The two requests of the recorded client, let through by the recorded API. -/
def recordedWebhookCalls (api : ApiWorld String) : WebhookWorld String where
  api := api
  tables := ⟨.empty, .empty⟩
  calls :=
    [(recordedClient, .create (.ok ⟨recordedSubscription.url, recordedSubscription.eventTypes⟩)),
      (recordedClient, .get)]
  log := []

def recordedWebhooks (api : ApiWorld String) (n : ℕ) : WebhookWorld String :=
  (recordedWebhookSteps.take n).foldl
    (fun w step => step.apply recordedTxnbuild recordedJwt recordedApi some w)
    (recordedWebhookCalls api)

/-- What has been answered when the client lists. -/
def recordedWebhooksLog : List WebhookEvent :=
  [.answered recordedClient (.created recordedSubscription),
    .claimed ⟨recordedDelivery.lock (1767225725 * 10 ^ 9), recordedSubscription.url,
      recordedSubscription.secret⟩]

/-- The recorded API, after the client is let through once more. -/
def recordedCallers : ApiWorld String :=
  let authenticate := ApiStep.authenticate ("Bearer " ++ recordedToken) (1767225662 * 10 ^ 9)
  authenticate.apply recordedTxnbuild recordedJwt recordedApi
    (authenticate.apply recordedTxnbuild recordedJwt recordedApi (recordedApiWorld 6))

/-- The recorded states of the subscriptions. -/
abbrev RecordedWebhookReachable : WebhookWorld String → Prop :=
  WebhookReachable recordedTxnbuild recordedJwt recordedApi some

theorem recordedWebhookCalls_reachable :
    RecordedWebhookReachable (recordedWebhookCalls recordedCallers) := by
  have h₀ : RecordedWebhookReachable ⟨recordedApiWorld 6, ⟨.empty, .empty⟩, [], []⟩ :=
    .of_api recordedApiWorld_given
  have hallowed : (ApiStep.authenticate ("Bearer " ++ recordedToken) (1767225662 * 10 ^ 9)).Allowed
      recordedTxnbuild recordedJwt recordedApi (recordedApiWorld 6) :=
    ⟨recordedApiWorld_clocks.2.2.2.2, recordedApiWorld_unforged⟩
  have hcreate := h₀.request recordedToken_admits hallowed
    (.create (.ok ⟨recordedSubscription.url, recordedSubscription.eventTypes⟩))
  exact hcreate.request recordedToken_admits
    (ApiStep.authenticate_again recordedToken_admits hallowed) .get

theorem recordedWebhooks_reachable :
    RecordedWebhookReachable (recordedWebhooks recordedCallers 4) := by
  have h₁ := recordedWebhookCalls_reachable.step
    (.serve 0 (recordedHooks recordedSubscription.id (1767225663 * 10 ^ 9)))
    (by simp [WebhookStep.Allowed, recordedWebhookCalls])
  have h₃ := (h₁.step (.enqueue recordedDelivery) trivial).step
    (.claim 10 (60 * 10 ^ 9) (1767225665 * 10 ^ 9) fun _ => false) trivial
  have hlog : (recordedWebhooks recordedCallers 3).log =
      recordedWebhooksLog := rfl
  refine h₃.step (.serve 0 (recordedHooks "" (1767225666 * 10 ^ 9))) fun userAddr sub hsub => ?_
  have hsub' : WebhookEvent.answered userAddr (.created sub) ∈
      (recordedWebhooks recordedCallers 3).log := hsub
  rw [hlog] at hsub'
  obtain ⟨-, rfl⟩ : userAddr = recordedClient ∧ sub = recordedSubscription := by
    simpa [recordedWebhooksLog] using hsub'
  decide +kernel

theorem recordedTxnbuild_injective : ∀ tx tx' txHash,
    recordedTxnbuild.hash recordedApi.passphrase tx = .ok txHash →
      recordedTxnbuild.hash recordedApi.passphrase tx' = .ok txHash → tx = tx' := by
  intro tx tx' txHash htx htx'
  rw [(recordedTxnbuild_hash htx).1, (recordedTxnbuild_hash htx').1]

theorem recordedWebhooks_log (api : ApiWorld String) :
    (recordedWebhooks api 4).log = recordedWebhooksLog ++
      [.answered recordedClient (.data [recordedSubscription.withoutSecret])] := by
  rfl

theorem claimed_subscription_recorded :
    ∃ sub, .answered sub.userAddress (.created sub) ∈ recordedWebhooksLog.take 1
      ∧ Undeleted (recordedWebhooksLog.take 1) sub.id
      ∧ sub.url = "https://hooks.example/trusttrove"
      ∧ ∃ ch ∈ (recordedWebhooks recordedCallers 4).api.auth.issued,
        ch.clientAddr = sub.userAddress := by
  obtain ⟨sub, hcreated, hundeleted, -, hurl, -, ch, hch, hclient, -⟩ :=
    (claimed_subscription recordedTxnbuild_injective recordedJwt_checksExpiry
      recordedWebhooks_reachable).1 (recordedWebhooksLog.take 1) _ _
      (recordedWebhooks_log recordedCallers)
  exact ⟨sub, hcreated, hundeleted, hurl, ch, hch, hclient⟩

theorem listed_subscriptions_recorded :
    ∃ sub, .answered recordedClient (.created sub) ∈ recordedWebhooksLog
      ∧ recordedSubscription.withoutSecret = sub.withoutSecret := by
  obtain ⟨sub, hcreated, -, hshown⟩ := ((listed_subscriptions recordedWebhooks_reachable
    (recordedWebhooks_log recordedCallers)).1 recordedSubscription.withoutSecret).1 (by simp)
  exact ⟨sub, hcreated, hshown⟩

end Recorded

end TrusTrove
