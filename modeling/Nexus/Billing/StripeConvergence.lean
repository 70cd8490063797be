/-
What the webhooks of one customer's subscription do to the customer's account,
over every schedule of their deliveries.

An event is committed once, with its row. The columns are those of the event
that was committed last, not of the one Stripe created last, and where
deliveries overlap they can be of several events. So the account shows the last
created event throughout a run exactly when each commit finds, in the columns it
does not write, what it is to leave there (`InOrder`).
-/
import Nexus.Billing.StripeWebhook

namespace Nexus.Billing
open Relational Transition

/-! ## The events of a customer -/

/-- An event of the customer's one subscription; its metadata names the user, or
may be absent where not all do. -/
def StripeObject.BelongsTo (customerId subscriptionId : String) (userId : Uuid) (named : Bool) (object : StripeObject) : Prop :=
  (object.nexusUserId = .some userId ∨ (named = false ∧ object.nexusUserId = .none)) ∧
    match object with
    | .checkout session => session.customer = .some customerId ∧
        (session.subscription = .none ∨ session.subscription = .some subscriptionId)
    | .subscription s => s.customer = .some customerId ∧ s.id = .some subscriptionId
    | .other => False

/-- The events Stripe creates for one customer. -/
structure StripeHistory where
  customerId : String
  subscriptionId : String
  userId : Uuid
  /-- every event names the user -/
  named : Bool
  events : List StripeEvent
  nodup_id : (events.map StripeEvent.id).Nodup
  nodup_created : (events.map StripeEvent.created).Nodup
  belongs : ∀ e ∈ events, e.object.BelongsTo customerId subscriptionId userId named

/-- The account as a checkout finds it: `create_checkout_session` has stored the
customer, unless every event names the user, and no other account has the
customer or the subscription. -/
def StripeHistory.Init (h : StripeHistory) (s : WebhookState) : Prop :=
  s.events = .empty ∧ (∀ n, s.deliveries n = .none) ∧
    (∀ a ∈ s.accounts.rows, a.stripeCustomerId = .some h.customerId ∨ a.stripeSubscriptionId = .some h.subscriptionId →
      a.userId = h.userId) ∧
    (h.named = true ∨ ∃ a ∈ s.accounts.rows, a.userId = h.userId ∧ a.stripeCustomerId = .some h.customerId)

/-- A step of the webhooks; only the customer's events are delivered. -/
def StripeHistory.next (h : StripeHistory) (prices : StripePrices) (s : WebhookState) (step : WebhookStep) :
    Option WebhookState :=
  match step with
  | .deliver n e => if e ∈ h.events then s.next prices (.deliver n e) else .none
  | step => s.next prices step

def stripeSystem (h : StripeHistory) (prices : StripePrices) : System WebhookState WebhookStep :=
  .ofFun h.Init (h.next prices)

/-! ## What an account is to show -/

/-- Plan tier, status and billing period. -/
@[ext] structure Terms where
  planTier : PlanTier
  subscriptionStatus : Option String
  currentPeriodStart : Option Instant
  currentPeriodEnd : Option Instant
  deriving DecidableEq

def BillingAccount.terms (a : BillingAccount) : Terms :=
  ⟨a.planTier, a.subscriptionStatus, a.currentPeriodStart, a.currentPeriodEnd⟩

def Subscription.terms (prices : StripePrices) (s : Subscription) : Terms :=
  ⟨planForPriceId prices s.priceId, s.status, s.currentPeriodStart, s.currentPeriodEnd⟩

def StripeEvent.isSubscription (e : StripeEvent) : Bool :=
  match e.object with
  | .subscription _ => true
  | _ => false

/-- The subscription event of a list that Stripe created last. -/
def IsLast (events : List StripeEvent) (e : StripeEvent) (sub : Subscription) : Prop :=
  e ∈ events ∧ e.object = .subscription sub ∧ ∀ e' ∈ events, e'.isSubscription = true → e'.created ≤ e.created

/-- The account shows the last created of the processed subscription events. -/
def Converged (h : StripeHistory) (prices : StripePrices) (s : WebhookState) : Prop :=
  ∀ e sub, IsLast s.events.rows e sub → ∃ a ∈ s.accounts.rows, a.userId = h.userId ∧ a.terms = sub.terms prices

/-- The accounts change with an event's row only, which was not there; a
delivery of a processed event changes nothing. -/
def AppliedOnce (s : WebhookState) (step : WebhookStep) (t : WebhookState) : Prop :=
  (t.accounts = s.accounts ∧ t.events = s.events ∨
    ∃ e, s.events.find? e.id = .none ∧ t.events.rows = e :: s.events.rows) ∧
  ∀ n e, step = .deliver n e → (s.events.find? e.id).isSome = true → t = s

/-! ## The condition -/

/-- Each column loaded with the value to assign still has it: all columns get theirs. -/
def Terms.Takes (loaded assigned current : Terms) : Prop :=
  (assigned.planTier = loaded.planTier → current.planTier = assigned.planTier) ∧
    (assigned.subscriptionStatus = loaded.subscriptionStatus → current.subscriptionStatus = assigned.subscriptionStatus) ∧
    (assigned.currentPeriodStart = loaded.currentPeriodStart → current.currentPeriodStart = assigned.currentPeriodStart) ∧
    (assigned.currentPeriodEnd = loaded.currentPeriodEnd → current.currentPeriodEnd = assigned.currentPeriodEnd)

/-- Each column loaded with another value has the one to assign: none changes. -/
def Terms.Keeps (loaded assigned current : Terms) : Prop :=
  (assigned.planTier ≠ loaded.planTier → assigned.planTier = current.planTier) ∧
    (assigned.subscriptionStatus ≠ loaded.subscriptionStatus → assigned.subscriptionStatus = current.subscriptionStatus) ∧
    (assigned.currentPeriodStart ≠ loaded.currentPeriodStart → assigned.currentPeriodStart = current.currentPeriodStart) ∧
    (assigned.currentPeriodEnd ≠ loaded.currentPeriodEnd → assigned.currentPeriodEnd = current.currentPeriodEnd)

instance (loaded assigned current : Terms) : Decidable (Terms.Takes loaded assigned current) :=
  inferInstanceAs (Decidable (_ ∧ _))

instance (loaded assigned current : Terms) : Decidable (Terms.Keeps loaded assigned current) :=
  inferInstanceAs (Decidable (_ ∧ _))

/-- The commit of a subscription event: if it is newer than those processed, the
columns it leaves alone have its values; if not, those it writes have them. -/
def InOrder (prices : StripePrices) (s : WebhookState) : WebhookStep → Prop
  | .commit n _ _ =>
    match s.deliveries n with
    | .some ⟨e, _, .some loaded⟩ =>
      match e.object with
      | .subscription sub =>
        e ∈ s.events.rows ∨ sub.status.all subscriptionStatuses.contains = false ∨
          ∀ current ∈ s.accounts.rows, current.id = loaded.id →
            if ∀ e' ∈ s.events.rows, e'.isSubscription = true → e'.created ≤ e.created
            then loaded.terms.Takes (sub.terms prices) current.terms
            else loaded.terms.Keeps (sub.terms prices) current.terms
      | _ => True
    | _ => True
  | _ => True

instance (prices : StripePrices) (s : WebhookState) (step : WebhookStep) : Decidable (InOrder prices s step) := by
  unfold InOrder
  split
  · split
    · split
      · infer_instance
      · infer_instance
    · infer_instance
  · infer_instance

theorem written_eq_assigned {α : Type} [DecidableEq α] {l a c : α} : written l a c = a ↔ (a = l → c = a) := by
  unfold written
  by_cases h : a = l
  · simp [h]
  · simp [h]

theorem written_eq_current {α : Type} [DecidableEq α] {l a c : α} : written l a c = c ↔ (a ≠ l → a = c) := by
  unfold written
  by_cases h : a = l
  · simp [h]
  · simp [h]

theorem written_cases {α : Type} [DecidableEq α] (l a c : α) : written l a c = c ∨ written l a c = a := by
  unfold written
  split
  · exact .inl rfl
  · exact .inr rfl

theorem written_self {α : Type} [DecidableEq α] (l c : α) : written l l c = c := if_pos rfl

section Flush

variable {prices : StripePrices} {now : Instant} {sub : Subscription} {session : CheckoutSession}
  {loaded current : BillingAccount}

theorem takes_iff : (flushed loaded (StripeObject.assign prices now (.subscription sub) loaded) current).terms = sub.terms prices ↔
    loaded.terms.Takes (sub.terms prices) current.terms := by
  simp only [BillingAccount.terms, Subscription.terms, flushed, StripeObject.assign, Terms.mk.injEq, Terms.Takes,
    written_eq_assigned]

theorem keeps_iff : (flushed loaded (StripeObject.assign prices now (.subscription sub) loaded) current).terms = current.terms ↔
    loaded.terms.Keeps (sub.terms prices) current.terms := by
  simp only [BillingAccount.terms, Subscription.terms, flushed, StripeObject.assign, Terms.mk.injEq, Terms.Keeps,
    written_eq_current]

theorem status_allowed (hloaded : billingAccounts.check loaded = true)
    (hcheck : billingAccounts.check (flushed loaded (StripeObject.assign prices now (.subscription sub) loaded) current) = true) :
    sub.status.all subscriptionStatuses.contains = true := by
  by_cases heq : sub.status = loaded.subscriptionStatus
  · rw [heq]
    exact hloaded
  · have hw : written loaded.subscriptionStatus sub.status current.subscriptionStatus = sub.status := if_neg heq
    rw [← hw]
    exact hcheck

theorem terms_flush_checkout :
    (flushed loaded (StripeObject.assign prices now (.checkout session) loaded) current).terms = current.terms := by
  simp only [BillingAccount.terms, flushed, StripeObject.assign, written_self]

end Flush

/-! ## The last created event -/

theorem exists_isLast {events : List StripeEvent} (h : ∃ e ∈ events, e.isSubscription = true) :
    ∃ e sub, IsLast events e sub := by
  have hsub : ∀ e : StripeEvent, e.isSubscription = true → ∃ sub, e.object = .subscription sub := by
    intro e he
    unfold StripeEvent.isSubscription at he
    split at he
    · exact ⟨_, by assumption⟩
    · cases he
  induction events with
  | nil => simp at h
  | cons a l ih =>
    by_cases hl : ∃ e ∈ l, e.isSubscription = true
    · obtain ⟨e, sub, he, hobj, hmax⟩ := ih hl
      by_cases ha : a.isSubscription = true ∧ e.created < a.created
      · obtain ⟨sub', hsub'⟩ := hsub a ha.1
        refine ⟨a, sub', by simp, hsub', List.forall_mem_cons.2 ⟨fun _ => Nat.le_refl _, fun e' he' hs => ?_⟩⟩
        exact Nat.le_trans (hmax e' he' hs) (Nat.le_of_lt ha.2)
      · refine ⟨e, sub, by simp [he], hobj, List.forall_mem_cons.2 ⟨fun hs => ?_, hmax⟩⟩
        exact Nat.not_lt.1 fun hlt => ha ⟨hs, hlt⟩
    · obtain ⟨e, he, hs⟩ := h
      rcases List.mem_cons.1 he with rfl | he
      · obtain ⟨sub, hobj⟩ := hsub e hs
        refine ⟨e, sub, by simp, hobj, List.forall_mem_cons.2 ⟨fun _ => Nat.le_refl _, fun e' he' hs' => ?_⟩⟩
        exact absurd ⟨e', he', hs'⟩ hl
      · exact absurd ⟨e, he, hs⟩ hl

theorem IsLast.isSubscription {events : List StripeEvent} {e : StripeEvent} {sub : Subscription} (h : IsLast events e sub) :
    e.isSubscription = true := by
  unfold StripeEvent.isSubscription
  rw [h.2.1]

theorem IsLast.of_cons {events : List StripeEvent} {a e : StripeEvent} {sub : Subscription} (h : IsLast (a :: events) e sub)
    (hne : e ≠ a) : IsLast events e sub :=
  ⟨(List.mem_cons.1 h.1).resolve_left hne, h.2.1, fun e' he' => h.2.2 e' (List.mem_cons_of_mem _ he')⟩

/-! ## Accounts and deliveries along a run -/

/-- What holds of a delivery's lookups and of the account it loaded. -/
structure DeliveryOk (h : StripeHistory) (accounts : Store billingAccounts) (d : Delivery) : Prop where
  event : d.event ∈ h.events
  lookups : ∀ key ∈ d.lookups, key ∈ d.event.object.keys
  loaded : ∀ a, d.loaded = .some a → a.userId = h.userId ∧ billingAccounts.check a = true ∧
    ∃ current ∈ accounts.rows, current.id = a.id ∧ current.userId = h.userId ∧
      (a.stripeCustomerId = .some h.customerId → current.stripeCustomerId = .some h.customerId) ∧
      (a.stripeSubscriptionId = .some h.subscriptionId → current.stripeSubscriptionId = .some h.subscriptionId)
  missed : d.loaded = .none → h.named = true ∨ AccountKey.customer h.customerId ∈ d.lookups

/-- The customer's keys find the user's account only, and one of them does. -/
structure WebhookInv (h : StripeHistory) (s : WebhookState) : Prop where
  owned : ∀ a ∈ s.accounts.rows, a.stripeCustomerId = .some h.customerId ∨ a.stripeSubscriptionId = .some h.subscriptionId →
    a.userId = h.userId
  known : h.named = true ∨ ∃ a ∈ s.accounts.rows, a.userId = h.userId ∧ a.stripeCustomerId = .some h.customerId
  events : ∀ e ∈ s.events.rows, e ∈ h.events
  delivery : ∀ n d, s.deliveries n = .some d → DeliveryOk h s.accounts d

section Steps

variable {h : StripeHistory} {prices : StripePrices} {s t : WebhookState}

theorem account_eq {accounts : Store billingAccounts} {a b : BillingAccount} (ha : a ∈ accounts.rows) (hb : b ∈ accounts.rows)
    (hu : a.userId = b.userId) : a = b :=
  accounts.unique a ha b hb (by simp [billingAccounts, hu])

theorem DeliveryOk.of_setDelivery {n : Nat} {d : Option Delivery} {accounts : Store billingAccounts}
    (hold : ∀ m d', s.deliveries m = .some d' → DeliveryOk h accounts d') (hnew : ∀ d', d = .some d' → DeliveryOk h accounts d') :
    ∀ m d', (s.setDelivery n d).deliveries m = .some d' → DeliveryOk h accounts d' := by
  intro m d' hd
  by_cases hm : m = n
  · subst hm
    exact hnew d' (by simpa [WebhookState.setDelivery] using hd)
  · refine hold m d' ?_
    have hne : (s.setDelivery n d).deliveries m = s.deliveries m := Function.update_of_ne hm _ _
    rw [← hne]
    exact hd

theorem userId_of_matches (hI : WebhookInv h s) {e : StripeEvent} (he : e ∈ h.events) {key : AccountKey}
    (hkey : key ∈ e.object.keys) {a : BillingAccount} (ha : a ∈ s.accounts.rows) (hm : key.matches a = true) :
    a.userId = h.userId := by
  obtain ⟨huser, hobj⟩ := h.belongs e he
  have hname : ∀ u, e.object.nexusUserId = .some u → u = h.userId := by
    intro u hu
    rcases huser with hn | ⟨-, hn⟩
    · rw [hn] at hu
      exact (Option.some.inj hu).symm
    · rw [hn] at hu
      cases hu
  cases hcase : e.object with
  | checkout session =>
    rw [hcase] at hkey hobj hname
    simp only [StripeObject.keys, List.mem_append, Option.mem_toList, Option.map_eq_some_iff] at hkey
    rcases hkey with ⟨c, hc, rfl⟩ | ⟨u, hu, rfl⟩
    · refine hI.owned a ha (.inl ?_)
      rw [← hobj.1, hc]
      simpa [AccountKey.matches] using hm
    · rw [← hname u hu]
      simpa [AccountKey.matches] using hm
  | subscription sub =>
    rw [hcase] at hkey hobj hname
    simp only [StripeObject.keys, List.mem_append, Option.mem_toList, Option.map_eq_some_iff] at hkey
    rcases hkey with (⟨i, hi, rfl⟩ | ⟨c, hc, rfl⟩) | ⟨u, hu, rfl⟩
    · refine hI.owned a ha (.inr ?_)
      rw [← hobj.2, hi]
      simpa [AccountKey.matches] using hm
    · refine hI.owned a ha (.inl ?_)
      rw [← hobj.1, hc]
      simpa [AccountKey.matches] using hm
    · rw [← hname u hu]
      simpa [AccountKey.matches] using hm
  | other =>
    rw [hcase] at hkey
    cases hkey

theorem assign_ids {e : StripeEvent} (he : e ∈ h.events) (prices : StripePrices) (now : Instant) (a : BillingAccount) :
    (e.object.assign prices now a).userId = a.userId ∧ (e.object.assign prices now a).stripeCustomerId = .some h.customerId ∧
      ((e.object.assign prices now a).stripeSubscriptionId = .some h.subscriptionId ∨
        (e.object.assign prices now a).stripeSubscriptionId = a.stripeSubscriptionId) := by
  obtain ⟨-, hobj⟩ := h.belongs e he
  cases hcase : e.object with
  | checkout session =>
    rw [hcase] at hobj
    refine ⟨rfl, by simp [StripeObject.assign, hobj.1], ?_⟩
    rcases hobj.2 with hs | hs
    · exact .inr (by simp [StripeObject.assign, hs])
    · exact .inl (by simp [StripeObject.assign, hs])
  | subscription sub =>
    rw [hcase] at hobj
    exact ⟨rfl, by simp [StripeObject.assign, hobj.1], .inl (by simp [StripeObject.assign, hobj.2])⟩
  | other =>
    rw [hcase] at hobj
    exact hobj.elim

/-- A commit that is made: the row of its event, and its account updated or inserted. -/
inductive Committed (h : StripeHistory) (prices : StripePrices) (s : WebhookState) (d : Delivery) (now : Instant) (newId : Uuid) :
    List BillingAccount → Prop
  | update (loaded current : BillingAccount) (hl : d.loaded = .some loaded) (hc : current ∈ s.accounts.rows)
      (hid : current.id = loaded.id) : Committed h prices s d now newId (s.accounts.rows.map fun a =>
        if a.id = loaded.id then flushed loaded (d.event.object.assign prices now loaded) a else a)
  | insert (hl : d.loaded = .none) (hnone : ∀ a ∈ s.accounts.rows, a.userId ≠ h.userId) :
      Committed h prices s d now newId (d.event.object.assign prices now (newAccount newId h.userId now) :: s.accounts.rows)

theorem commitDelivery_ok (hI : WebhookInv h s) {n : Nat} {d : Delivery} (hd : s.deliveries n = .some d)
    (hready : (d.loaded.isNone && !d.lookups.isEmpty) = false) {now : Instant} {newId : Uuid} {r}
    (hr : commitDelivery prices s.accounts s.events d now newId = .some r) :
    (s.events.find? d.event.id = .none ∧ r.2.rows = d.event :: s.events.rows) ∧
      Committed h prices s d now newId r.1.rows := by
  have hok := hI.delivery n d hd
  unfold commitDelivery at hr
  simp only at hr
  split at hr
  · rename_i accounts events hsync hevent
    obtain rfl := Option.some.inj hr
    refine ⟨Table.insert?_eq_some.1 hevent, ?_⟩
    cases hl : d.loaded with
    | some loaded =>
      rw [hl] at hsync
      obtain ⟨-, -, current, hc, hid, -⟩ := hok.loaded loaded hl
      rw [show accounts.rows = _ from Store.rows_update? hsync]
      exact .update loaded current hl hc hid
    | none =>
      rw [hl] at hsync
      -- the customer is known only by name: the event names the user
      have hnamed : h.named = true := by
        refine (hok.missed hl).resolve_right fun hmem => ?_
        rw [hl] at hready
        simp only [Option.isNone_none, Bool.true_and, Bool.not_eq_false'] at hready
        rw [List.isEmpty_iff.1 hready] at hmem
        cases hmem
      have hname : d.event.object.nexusUserId = .some h.userId := by
        refine (h.belongs _ hok.event).1.resolve_right fun hn => ?_
        rw [hnamed] at hn
        cases hn.1
      rw [hname] at hsync
      obtain ⟨⟨-, hfresh⟩, hrows⟩ := Store.insert?_eq_some.1 hsync
      have hnew : (d.event.object.assign prices now (newAccount newId h.userId now)).userId = h.userId := (assign_ids hok.event prices now _).1
      have hmem : ∀ {a}, a ∈ s.accounts.rows → a ∈ accounts.rows := fun ha => by rw [hrows]; exact List.mem_cons_of_mem _ ha
      rw [hrows]
      refine .insert hl fun a ha hu => ?_
      have heq := account_eq (hmem ha) (by rw [hrows]; exact List.mem_cons_self) (hu.trans hnew.symm)
      exact Table.find?_eq_none.1 hfresh a ha (congrArg BillingAccount.id heq)
  · cases hr

theorem flushed_customer {e : StripeEvent} (he : e ∈ h.events) (prices : StripePrices) (now : Instant)
    {loaded current : BillingAccount}
    (hcust : loaded.stripeCustomerId = .some h.customerId → current.stripeCustomerId = .some h.customerId) :
    (flushed loaded (e.object.assign prices now loaded) current).stripeCustomerId = .some h.customerId := by
  have hassign := (assign_ids he prices now loaded).2.1
  simp only [flushed, written, hassign]
  split
  · rename_i heq
    exact hcust heq.symm
  · rfl

/-- The rows after a commit: those there were, but for the user's account, which
has the customer's id. -/
theorem Committed.rows (hI : WebhookInv h s) {n : Nat} {d : Delivery} (hd : s.deliveries n = .some d) {now : Instant}
    {newId : Uuid} {rows : List BillingAccount} (hc : Committed h prices s d now newId rows) :
    (∀ a ∈ rows, a.userId ≠ h.userId → a ∈ s.accounts.rows) ∧
      (∃ a ∈ rows, a.userId = h.userId ∧ a.stripeCustomerId = .some h.customerId) ∧
      ∀ a ∈ s.accounts.rows, ∃ b ∈ rows, b.id = a.id ∧ b.userId = a.userId ∧
        (a.stripeCustomerId = .some h.customerId → b.stripeCustomerId = .some h.customerId) ∧
        (a.stripeSubscriptionId = .some h.subscriptionId → b.stripeSubscriptionId = .some h.subscriptionId) := by
  have hok := hI.delivery n d hd
  cases hc with
  | update loaded current hl hcur hid =>
    obtain ⟨hu, -, current', hcur', hid', hu', hcust, hsub⟩ := hok.loaded loaded hl
    obtain rfl : current = current' := Table.eq_of_key (t := s.accounts.toTable) hcur hcur' (hid.trans hid'.symm)
    have hrow : flushed loaded (d.event.object.assign prices now loaded) current ∈ s.accounts.rows.map fun a =>
        if a.id = loaded.id then flushed loaded (d.event.object.assign prices now loaded) a else a :=
      List.mem_map.2 ⟨current, hcur, if_pos hid⟩
    refine ⟨fun a ha hne => ?_, ⟨_, hrow, hu', flushed_customer hok.event prices now hcust⟩, fun a ha => ?_⟩
    · obtain ⟨b, hb, rfl⟩ := List.mem_map.1 ha
      by_cases hbid : b.id = loaded.id
      · obtain rfl : b = current := Table.eq_of_key (t := s.accounts.toTable) hb hcur (hbid.trans hid.symm)
        rw [if_pos hbid] at hne
        exact absurd hu' hne
      · rw [if_neg hbid]
        exact hb
    · by_cases haid : a.id = loaded.id
      · obtain rfl : a = current := Table.eq_of_key (t := s.accounts.toTable) ha hcur (haid.trans hid.symm)
        refine ⟨_, hrow, rfl, rfl, fun _ => flushed_customer hok.event prices now hcust, fun ha => ?_⟩
        rcases (assign_ids hok.event prices now loaded).2.2 with hassign | hassign
        · simp only [flushed, written, hassign]
          split
          · exact ha
          · rfl
        · simp only [flushed, written, hassign, if_true]
          exact ha
      · exact ⟨a, List.mem_map.2 ⟨a, ha, if_neg haid⟩, rfl, rfl, id, id⟩
  | insert hl hnone =>
    obtain ⟨hu, hcust, -⟩ := assign_ids hok.event prices now (newAccount newId h.userId now)
    refine ⟨fun a ha hne => ?_, ⟨_, List.mem_cons_self, hu, hcust⟩, fun a ha => ⟨a, List.mem_cons_of_mem _ ha, rfl, rfl, id, id⟩⟩
    rcases List.mem_cons.1 ha with rfl | ha
    · exact absurd hu hne
    · exact ha

theorem inv_init (h0 : h.Init s) : WebhookInv h s := by
  obtain ⟨hev, hdel, howned, hknown⟩ := h0
  refine ⟨howned, hknown, fun e he => ?_, fun n d hd => ?_⟩
  · rw [hev] at he
    cases he
  · rw [hdel n] at hd
    cases hd

/-- What a step can do, from the customer's events. -/
inductive Stepped (h : StripeHistory) (prices : StripePrices) (s : WebhookState) : WebhookStep → WebhookState → Prop
  | known (n e) (he : (s.events.find? e.id).isSome = true) : Stepped h prices s (.deliver n e) s
  | deliver (n e) (he : e ∈ h.events) (hnone : (s.events.find? e.id).isSome = false) :
      Stepped h prices s (.deliver n e) (s.setDelivery n (.some ⟨e, e.object.keys, .none⟩))
  | lookup (n e key lookups) (hd : s.deliveries n = .some ⟨e, key :: lookups, .none⟩) :
      Stepped h prices s (.lookup n) (s.setDelivery n (.some ⟨e, lookups, s.accounts.rows.find? key.matches⟩))
  | refused (n d now newId) (hd : s.deliveries n = .some d) (hc : commitDelivery prices s.accounts s.events d now newId = .none) :
      Stepped h prices s (.commit n now newId) (s.setDelivery n .none)
  | commit (n d now newId r) (hd : s.deliveries n = .some d) (hready : (d.loaded.isNone && !d.lookups.isEmpty) = false)
      (hc : commitDelivery prices s.accounts s.events d now newId = .some r) :
      Stepped h prices s (.commit n now newId) (({ s with accounts := r.1, events := r.2 } : WebhookState).setDelivery n .none)
  | drop (n) : Stepped h prices s (.drop n) (s.setDelivery n .none)

theorem stepped {step : WebhookStep} (hn : h.next prices s step = .some t) : Stepped h prices s step t := by
  cases step with
  | deliver n e =>
    simp only [StripeHistory.next] at hn
    split at hn
    · rename_i he
      unfold WebhookState.next at hn
      simp only at hn
      split at hn
      · cases hn
      · split at hn
        · rename_i hfound
          obtain rfl := Option.some.inj hn
          exact .known n e hfound
        · rename_i hfound
          obtain rfl := Option.some.inj hn
          exact .deliver n e he (Bool.eq_false_iff.2 hfound)
    · cases hn
  | lookup n =>
    simp only [StripeHistory.next, WebhookState.next] at hn
    split at hn
    · rename_i e key lookups hd
      obtain rfl := Option.some.inj hn
      exact .lookup n e key lookups hd
    · cases hn
  | commit n now newId =>
    simp only [StripeHistory.next, WebhookState.next] at hn
    split at hn
    · cases hn
    · rename_i d hd
      split at hn
      · cases hn
      · rename_i hready
        split at hn
        · rename_i hc
          obtain rfl := Option.some.inj hn
          exact .refused n d now newId hd hc
        · rename_i accounts events hc
          obtain rfl := Option.some.inj hn
          exact .commit n d now newId (accounts, events) hd (Bool.eq_false_iff.2 hready) hc
  | drop n =>
    obtain rfl := Option.some.inj hn
    exact .drop n

theorem inv_step {step : WebhookStep} (hI : WebhookInv h s) (hn : h.next prices s step = .some t) : WebhookInv h t := by
  have hnone : ∀ d', (Option.none : Option Delivery) = .some d' → DeliveryOk h s.accounts d' := fun _ hd' => by cases hd'
  cases stepped hn with
  | known n e he => exact hI
  | deliver n e he hfree =>
    refine ⟨hI.owned, hI.known, hI.events, DeliveryOk.of_setDelivery hI.delivery fun d' hd' => ?_⟩
    obtain rfl := Option.some.inj hd'
    refine ⟨he, fun _ hkey => hkey, fun _ ha => (by cases ha), fun _ => .inr ?_⟩
    obtain ⟨-, hobj⟩ := h.belongs e he
    cases hcase : e.object with
    | checkout session =>
      rw [hcase] at hobj
      simp [StripeObject.keys, hobj.1]
    | subscription sub =>
      rw [hcase] at hobj
      simp [StripeObject.keys, hobj.1]
    | other =>
      rw [hcase] at hobj
      exact hobj.elim
  | lookup n e key lookups hd =>
    have hok := hI.delivery n _ hd
    refine ⟨hI.owned, hI.known, hI.events, DeliveryOk.of_setDelivery hI.delivery fun d' hd' => ?_⟩
    obtain rfl := Option.some.inj hd'
    refine ⟨hok.event, fun k hk => hok.lookups k (List.mem_cons_of_mem _ hk), fun a ha => ?_, fun hmiss => ?_⟩
    · have hmem := List.mem_of_find?_eq_some ha
      have hu := userId_of_matches hI hok.event (hok.lookups key List.mem_cons_self) hmem (List.find?_some ha)
      exact ⟨hu, s.accounts.checked a hmem, a, hmem, rfl, hu, id, id⟩
    · rcases hok.missed rfl with hnamed | hmem
      · exact .inl hnamed
      · rcases List.mem_cons.1 hmem with hkey | hmem
        · -- the customer's account is there to be found
          refine hI.known.imp_right fun ⟨a, ha, _, hcust⟩ => absurd ?_ (List.find?_eq_none.1 hmiss a ha)
          rw [← hkey]
          simp [AccountKey.matches, hcust]
        · exact .inr hmem
  | refused n d now newId hd hc =>
    exact ⟨hI.owned, hI.known, hI.events, DeliveryOk.of_setDelivery hI.delivery hnone⟩
  | drop n => exact ⟨hI.owned, hI.known, hI.events, DeliveryOk.of_setDelivery hI.delivery hnone⟩
  | commit n d now newId r hd hready hc =>
    obtain ⟨⟨-, hevents⟩, hcom⟩ := commitDelivery_ok hI hd hready hc
    obtain ⟨hother, hknown, hold⟩ := hcom.rows hI hd
    have hok := hI.delivery n d hd
    refine ⟨fun a ha hid => ?_, .inr hknown, fun e he => ?_, ?_⟩
    · by_contra hne
      exact hne (hI.owned a (hother a ha hne) hid)
    · have he' : e ∈ r.2.rows := he
      rw [hevents] at he'
      rcases List.mem_cons.1 he' with rfl | he'
      · exact hok.event
      · exact hI.events e he'
    · refine DeliveryOk.of_setDelivery (fun m d' hd' => ?_) (fun _ hd' => by cases hd')
      have hok' := hI.delivery m d' hd'
      refine ⟨hok'.event, hok'.lookups, fun a ha => ?_, hok'.missed⟩
      obtain ⟨hu, hcheck, current, hcur, hid, hcu, hcust, hsub⟩ := hok'.loaded a ha
      obtain ⟨b, hb, hbid, hbu, hbc, hbs⟩ := hold current hcur
      exact ⟨hu, hcheck, b, hb, hbid.trans hid, hbu.trans hcu, fun h => hbc (hcust h), fun h => hbs (hsub h)⟩

theorem appliedOnce_step {step : WebhookStep} (hI : WebhookInv h s) (hn : h.next prices s step = .some t) :
    AppliedOnce s step t := by
  cases stepped hn with
  | known n e he => exact ⟨.inl ⟨rfl, rfl⟩, fun _ _ _ _ => rfl⟩
  | deliver n e he hfree =>
    refine ⟨.inl ⟨rfl, rfl⟩, fun m e' heq hfound => ?_⟩
    cases heq
    rw [hfree] at hfound
    cases hfound
  | lookup n e key lookups hd => exact ⟨.inl ⟨rfl, rfl⟩, fun _ _ heq => by cases heq⟩
  | refused n d now newId hd hc => exact ⟨.inl ⟨rfl, rfl⟩, fun _ _ heq => by cases heq⟩
  | drop n => exact ⟨.inl ⟨rfl, rfl⟩, fun _ _ heq => by cases heq⟩
  | commit n d now newId r hd hready hc =>
    exact ⟨.inr ⟨d.event, (commitDelivery_ok hI hd hready hc).1⟩, fun _ _ heq => by cases heq⟩

/-! ## Convergence -/

theorem commit_made (hI : WebhookInv h s) {n : Nat} {d : Delivery} (hd : s.deliveries n = .some d) {loaded : BillingAccount}
    (hl : d.loaded = .some loaded) {sub : Subscription} (hobj : d.event.object = .subscription sub)
    (hnew : d.event ∉ s.events.rows) (hstatus : sub.status.all subscriptionStatuses.contains = true) (prices : StripePrices)
    (now : Instant) (newId : Uuid) : commitDelivery prices s.accounts s.events d now newId ≠ .none := by
  have hok := hI.delivery n d hd
  obtain ⟨hu, -, current, hcur, hid, hcu, hcust, hsub⟩ := hok.loaded loaded hl
  have hevent : ∃ events, s.events.insert? d.event = .some events := by
    cases hins : s.events.insert? d.event with
    | some events => exact ⟨events, rfl⟩
    | none =>
      obtain ⟨e, he⟩ := Table.insert?_eq_none.1 hins
      obtain ⟨he, hkey⟩ := Table.find?_eq_some.1 he
      rw [List.inj_on_of_nodup_map h.nodup_id (hI.events e he) hok.event hkey] at he
      exact absurd he hnew
  have hupdate : ∃ accounts, s.accounts.update? loaded.id (flushed loaded (d.event.object.assign prices now loaded)) =
      .some accounts := by
    unfold Store.update?
    simp only
    refine ⟨_, dif_pos fun a ha haid => Store.admits_eq_true.2 ⟨?_, fun b hb hbid => ?_⟩⟩
    · have hcheck := s.accounts.checked a ha
      rw [hobj]
      simp only [billingAccounts, flushed, StripeObject.assign] at hcheck ⊢
      rcases written_cases loaded.subscriptionStatus sub.status a.subscriptionStatus with hw | hw
      · rw [hw]
        exact hcheck
      · rw [hw]
        exact hstatus
    · obtain rfl : a = current := Table.eq_of_key (t := s.accounts.toTable) ha hcur (haid.trans hid.symm)
      obtain ⟨b₀, hb₀, rfl⟩ := List.mem_map.1 hb
      by_cases hb₀id : b₀.id = loaded.id
      · rw [if_pos (show billingAccounts.key b₀ = loaded.id from hb₀id)] at hbid
        exact absurd (hb₀id.trans hid.symm) hbid
      · rw [if_neg (show ¬ billingAccounts.key b₀ = loaded.id from hb₀id)]
        -- another row is another user's, and has neither id of the customer
        have hother : b₀.userId ≠ h.userId := fun hu' => hb₀id (by rw [account_eq hb₀ hcur (hu'.trans hcu.symm), hid])
        have hbc : b₀.stripeCustomerId ≠ .some h.customerId := fun hc => hother (hI.owned b₀ hb₀ (.inl hc))
        have hbs : b₀.stripeSubscriptionId ≠ .some h.subscriptionId := fun hs => hother (hI.owned b₀ hb₀ (.inr hs))
        have hfc := flushed_customer hok.event prices now hcust
        have hfs : (flushed loaded (d.event.object.assign prices now loaded) a).stripeSubscriptionId = .some h.subscriptionId := by
          have hassign : (d.event.object.assign prices now loaded).stripeSubscriptionId = .some h.subscriptionId := by
            have hb := (h.belongs _ hok.event).2
            rw [hobj] at hb ⊢
            simp [StripeObject.assign, hb.2]
          simp only [flushed, written, hassign]
          split
          · rename_i heq
            exact hsub heq.symm
          · rfl
        have hfu : (flushed loaded (d.event.object.assign prices now loaded) a).userId = h.userId := hcu
        simp only [billingAccounts, sameSome, hfc, hfs, hfu, Bool.or_eq_false_iff, beq_eq_false_iff_ne, Option.isSome_some,
          Bool.true_and, Bool.and_eq_false_iff]
        exact ⟨⟨⟨hother.symm, hbc.symm⟩, hbs.symm⟩, ⟨hother, .inr hbc⟩, .inr hbs⟩
  obtain ⟨events, hevent⟩ := hevent
  obtain ⟨accounts, hupdate⟩ := hupdate
  unfold commitDelivery
  simp only [hl, hupdate, hevent]
  exact Option.some_ne_none _

theorem user_row_update (hI : WebhookInv h s) {n : Nat} {d : Delivery} (hd : s.deliveries n = .some d)
    {loaded current : BillingAccount} (hl : d.loaded = .some loaded) (hcur : current ∈ s.accounts.rows)
    (hid : current.id = loaded.id) (prices : StripePrices) (now : Instant) {rows : List BillingAccount}
    (hrows : rows = s.accounts.rows.map fun a =>
      if a.id = loaded.id then flushed loaded (d.event.object.assign prices now loaded) a else a) {b : BillingAccount} :
    (b ∈ rows ∧ b.userId = h.userId ↔ b = flushed loaded (d.event.object.assign prices now loaded) current) ∧
      current.userId = h.userId := by
  obtain ⟨hu, -, current', hcur', hid', hu', -⟩ := (hI.delivery n d hd).loaded loaded hl
  obtain rfl : current = current' := Table.eq_of_key (t := s.accounts.toTable) hcur hcur' (hid.trans hid'.symm)
  refine ⟨⟨?_, ?_⟩, hu'⟩
  · rintro ⟨hb, hbu⟩
    rw [hrows] at hb
    obtain ⟨a, ha, rfl⟩ := List.mem_map.1 hb
    by_cases haid : a.id = loaded.id
    · obtain rfl : a = current := Table.eq_of_key (t := s.accounts.toTable) ha hcur (haid.trans hid.symm)
      rw [if_pos haid]
    · rw [if_neg haid] at hbu
      rw [account_eq ha hcur (hbu.trans hu'.symm)] at haid
      exact absurd hid haid
  · rintro rfl
    rw [hrows]
    exact ⟨List.mem_map.2 ⟨current, hcur, if_pos hid⟩, hu'⟩

theorem isLast_cons_newest {events : List StripeEvent} {e e₁ : StripeEvent} {sub sub₁ : Subscription} (he : e ∈ h.events)
    (hall : ∀ e' ∈ events, e' ∈ h.events) (hobj : e.object = .subscription sub)
    (hnewest : ∀ e' ∈ events, e'.isSubscription = true → e'.created ≤ e.created) :
    IsLast (e :: events) e₁ sub₁ ↔ e₁ = e ∧ sub₁ = sub := by
  have hsub : e.isSubscription = true := by
    unfold StripeEvent.isSubscription
    rw [hobj]
  constructor
  · intro hlast
    have heq : e₁ = e := by
      rcases List.mem_cons.1 hlast.1 with heq | hmem
      · exact heq
      · have hle := hnewest e₁ hmem hlast.isSubscription
        have hge := hlast.2.2 e List.mem_cons_self hsub
        exact List.inj_on_of_nodup_map h.nodup_created (hall e₁ hmem) he (Nat.le_antisymm hle hge)
    subst heq
    have hobj₁ := hlast.2.1
    rw [hobj] at hobj₁
    cases hobj₁
    exact ⟨rfl, rfl⟩
  · rintro ⟨rfl, rfl⟩
    exact ⟨List.mem_cons_self, hobj, List.forall_mem_cons.2 ⟨fun _ => Nat.le_refl _, hnewest⟩⟩

theorem converged_step {step : WebhookStep} (hI : WebhookInv h s) (hC : Converged h prices s)
    (hn : h.next prices s step = .some t) (hG : InOrder prices s step) : Converged h prices t := by
  cases stepped hn with
  | known n e he => exact hC
  | deliver n e he hfree => exact hC
  | lookup n e key lookups hd => exact hC
  | refused n d now newId hd hc => exact hC
  | drop n => exact hC
  | commit n d now newId r hd hready hc =>
    obtain ⟨⟨hfresh, hevents⟩, hcom⟩ := commitDelivery_ok hI hd hready hc
    have hok := hI.delivery n d hd
    have hnew : d.event ∉ s.events.rows := fun hmem => Table.find?_eq_none.1 hfresh _ hmem rfl
    intro e sub hlast
    change IsLast r.2.rows e sub at hlast
    change ∃ a ∈ r.1.rows, a.userId = h.userId ∧ a.terms = sub.terms prices
    rw [hevents] at hlast
    generalize hrows : r.1.rows = rows at hcom
    cases hcom with
    | update loaded current hl hcur hid =>
      obtain ⟨hrow, hcu⟩ := user_row_update (b := flushed loaded (d.event.object.assign prices now loaded) current) hI hd hl hcur
        hid prices now rfl
      obtain ⟨hmem, hu⟩ := hrow.2 rfl
      refine ⟨_, hmem, hu, ?_⟩
      -- the columns as they were, when the event that was last still is
      have hkept : IsLast s.events.rows e sub → current.terms = sub.terms prices := by
        intro hold
        obtain ⟨a, ha, hau, hterms⟩ := hC e sub hold
        rw [account_eq hcur ha (hcu.trans hau.symm)]
        exact hterms
      cases hobj : d.event.object with
      | checkout session =>
        rw [terms_flush_checkout]
        refine hkept (hlast.of_cons fun heq => ?_)
        have hobj' := hlast.2.1
        rw [heq, hobj] at hobj'
        cases hobj'
      | subscription sub₀ =>
        have hcheck := r.1.checked _ (by rw [hrows]; exact hmem)
        rw [hobj] at hcheck
        have hstatus := status_allowed (hok.loaded loaded hl).2.1 hcheck
        have hcond : ∀ current ∈ s.accounts.rows, current.id = loaded.id →
            if ∀ e' ∈ s.events.rows, e'.isSubscription = true → e'.created ≤ d.event.created
            then loaded.terms.Takes (sub₀.terms prices) current.terms
            else loaded.terms.Keeps (sub₀.terms prices) current.terms := by
          unfold InOrder at hG
          obtain ⟨e₀, lookups, loaded₀⟩ := d
          simp only at hl hobj hnew
          subst hl
          simp only [hd, hobj] at hG
          rcases hG with hin | hbad | hcond
          · exact absurd hin hnew
          · rw [hstatus] at hbad
            cases hbad
          · exact hcond
        have hcond := hcond current hcur hid
        by_cases hnewest : ∀ e' ∈ s.events.rows, e'.isSubscription = true → e'.created ≤ d.event.created
        · rw [if_pos hnewest] at hcond
          obtain ⟨-, rfl⟩ := (isLast_cons_newest hok.event hI.events hobj hnewest).1 hlast
          exact takes_iff.2 hcond
        · rw [if_neg hnewest] at hcond
          rw [keeps_iff.2 hcond]
          refine hkept (hlast.of_cons fun heq => hnewest fun e' he' hs => ?_)
          rw [← heq]
          exact hlast.2.2 e' (List.mem_cons_of_mem _ he') hs
      | other =>
        have hb := h.belongs _ hok.event
        rw [hobj] at hb
        exact hb.2.elim
    | insert hl hnone =>
      -- there was no account, so no subscription event was processed
      have hfirst : ∀ e' ∈ s.events.rows, e'.isSubscription = false := by
        intro e' he'
        by_contra hs
        obtain ⟨e₁, sub₁, hlast₁⟩ := exists_isLast ⟨e', he', Bool.eq_true_of_not_eq_false hs⟩
        obtain ⟨a, ha, hau, -⟩ := hC e₁ sub₁ hlast₁
        exact hnone a ha hau
      have heq : e = d.event := by
        by_contra hne
        have hfalse := hfirst e (hlast.of_cons hne).1
        rw [hlast.isSubscription] at hfalse
        cases hfalse
      obtain ⟨hu, -⟩ := assign_ids hok.event prices now (newAccount newId h.userId now)
      refine ⟨_, List.mem_cons_self, hu, ?_⟩
      rw [← heq, hlast.2.1]
      rfl

theorem inOrder_step {step : WebhookStep} (hI : WebhookInv h s) (hC : Converged h prices s)
    (hn : h.next prices s step = .some t) (hC' : Converged h prices t) : InOrder prices s step := by
  cases step with
  | deliver n e => trivial
  | lookup n => trivial
  | drop n => trivial
  | commit n now newId =>
    unfold InOrder
    simp only
    split
    · rename_i e lookups loaded hd
      split
      · rename_i sub hobj
        by_cases hin : e ∈ s.events.rows
        · exact .inl hin
        · by_cases hstatus : sub.status.all subscriptionStatuses.contains = true
          · right; right
            intro current hcur hid
            have hmade := commit_made hI hd rfl hobj hin hstatus prices now newId
            have hstep := stepped hn
            cases hstep with
            | refused n d now newId hd' hc =>
              rw [hd] at hd'
              obtain rfl := Option.some.inj hd'
              exact absurd hc hmade
            | commit n d now newId r hd' hready hc =>
              rw [hd] at hd'
              obtain rfl := Option.some.inj hd'
              obtain ⟨⟨-, hevents⟩, hcom⟩ := commitDelivery_ok hI hd hready hc
              have hshow : ∀ e' sub', IsLast (e :: s.events.rows) e' sub' →
                  (flushed loaded (e.object.assign prices now loaded) current).terms = sub'.terms prices := by
                intro e' sub' hlast
                obtain ⟨a, ha, hau, hterms⟩ := hC' e' sub' (by
                  change IsLast r.2.rows e' sub'
                  rw [hevents]
                  exact hlast)
                change a ∈ r.1.rows at ha
                generalize hrows : r.1.rows = rows at hcom ha
                cases hcom with
                | update loaded' current' hl' hcur' hid' =>
                  obtain rfl := Option.some.inj hl'
                  obtain rfl : current = current' := Table.eq_of_key (t := s.accounts.toTable) hcur hcur' (hid.trans hid'.symm)
                  rw [← ((user_row_update (b := a) hI hd rfl hcur hid prices now rfl).1).1 ⟨ha, hau⟩]
                  exact hterms
                | insert hl' _ => cases hl'
              rw [hobj] at hshow
              have he : e ∈ h.events := (hI.delivery n _ hd).event
              have hsub : e.isSubscription = true := by
                unfold StripeEvent.isSubscription
                rw [hobj]
              by_cases hnewest : ∀ e' ∈ s.events.rows, e'.isSubscription = true → e'.created ≤ e.created
              · rw [if_pos hnewest]
                exact takes_iff.1 (hshow e sub ((isLast_cons_newest he hI.events hobj hnewest).2 ⟨rfl, rfl⟩))
              · rw [if_neg hnewest]
                -- the last event before the commit is still the last
                simp only [not_forall, Nat.not_le] at hnewest
                obtain ⟨e', he', hs', hlt⟩ := hnewest
                obtain ⟨e₁, sub₁, hlast₁⟩ := exists_isLast ⟨e', he', hs'⟩
                have hlt₁ : e.created < e₁.created := Nat.lt_of_lt_of_le hlt (hlast₁.2.2 e' he' hs')
                have hlast : IsLast (e :: s.events.rows) e₁ sub₁ :=
                  ⟨List.mem_cons_of_mem _ hlast₁.1, hlast₁.2.1,
                    List.forall_mem_cons.2 ⟨fun _ => Nat.le_of_lt hlt₁, hlast₁.2.2⟩⟩
                obtain ⟨a, ha, hau, hterms⟩ := hC e₁ sub₁ hlast₁
                have hcu := (user_row_update (b := a) hI hd rfl hcur hid prices now rfl).2
                refine keeps_iff.1 ((hshow e₁ sub₁ hlast).trans ?_)
                rw [account_eq hcur ha (hcu.trans hau.symm), hterms]
          · exact .inr (.inl (Bool.eq_false_iff.2 hstatus))
      · trivial
    · trivial

end Steps

/-- **Every event is committed at most once and a redelivery changes nothing; and
the account shows the last created of the processed events throughout a run
exactly when every commit of a subscription event is in order.** -/
theorem webhooks_converge {h : StripeHistory} {prices : StripePrices} {s : WebhookState} {tr : List (WebhookStep × WebhookState)}
    (h0 : (stripeSystem h prices).init s) (hr : (stripeSystem h prices).Run s tr) :
    Along AppliedOnce s tr ∧
      ((∀ x ∈ tr, Converged h prices x.2) ↔ Along (fun s step _ => InOrder prices s step) s tr) := by
  have hI := inv_init h0
  have hC : Converged h prices s := by
    intro e sub hlast
    obtain ⟨hempty, -⟩ : h.Init s := h0
    have hmem := hlast.1
    rw [hempty] at hmem
    cases hmem
  refine ⟨System.Run.along_of_guarded (I := WebhookInv h) (G := fun _ _ => True)
    (fun s step t hs hI _ => ⟨inv_step hI hs, appliedOnce_step hI hs⟩) hr hI (hr.mono fun _ _ _ _ => trivial), ?_⟩
  exact System.Run.forall_iff_guarded (I := fun s => WebhookInv h s ∧ Converged h prices s) (fun _ hIC => hIC.2)
    (fun s step t hs hIC hG => ⟨inv_step hIC.1 hs, converged_step hIC.1 hIC.2 hs hG⟩)
    (fun s step t hs hIC hC' => inOrder_step hIC.1 hIC.2 hs hC') hr ⟨hI, hC⟩

/-! ## Two events -/

/-- An event of the customer's subscription. -/
def subscriptionEvent (id : String) (created : Nat) (priceId status : Option String) : StripeEvent :=
  ⟨id, created, .subscription ⟨.some "cus_1", .some "sub_1", .some 1, priceId, status, .some 0, .some 30, false⟩⟩

/-- Active on the plus plan, then canceled. -/
def canceled : StripeHistory where
  customerId := "cus_1"
  subscriptionId := "sub_1"
  userId := 1
  named := true
  events := [subscriptionEvent "evt_1" 1 (.some "price_plus") (.some "active"),
    subscriptionEvent "evt_2" 2 .none (.some "canceled")]
  nodup_id := by decide +kernel
  nodup_created := by decide
  belongs := by simp [subscriptionEvent, StripeObject.BelongsTo, StripeObject.nexusUserId]

def plusPrices : StripePrices := ⟨.some "price_plus", .none, .none⟩

def noAccount : WebhookState := ⟨.empty, .empty, fun _ => .none⟩

/-- A delivery of the first event a user has, and one that finds the account. -/
def firstDelivery (n : Nat) (e : StripeEvent) : List WebhookStep :=
  [.deliver n e, .lookup n, .lookup n, .lookup n, .commit n 5 7]

def nextDelivery (n : Nat) (e : StripeEvent) : List WebhookStep := [.deliver n e, .lookup n, .commit n 6 8]

/-- The cancellation is delivered first, and then undone. -/
def swapped : List WebhookStep :=
  firstDelivery 0 (subscriptionEvent "evt_2" 2 .none (.some "canceled")) ++
    nextDelivery 1 (subscriptionEvent "evt_1" 1 (.some "price_plus") (.some "active"))

def inTurn : List WebhookStep :=
  firstDelivery 0 (subscriptionEvent "evt_1" 1 (.some "price_plus") (.some "active")) ++
    nextDelivery 1 (subscriptionEvent "evt_2" 2 .none (.some "canceled"))

theorem init_noAccount : canceled.Init noAccount := ⟨rfl, fun _ => rfl, fun _ ha => (by cases ha), .inl rfl⟩

theorem webhooks_converge_inTurn : (replay (canceled.next plusPrices) noAccount inTurn).length = 8 ∧
    ∀ x ∈ replay (canceled.next plusPrices) noAccount inTurn, Converged canceled plusPrices x.2 :=
  ⟨by decide +kernel, (webhooks_converge init_noAccount System.run_replay).2.2 (by decide +kernel)⟩

/-- Both events are processed, and the account is active. -/
theorem webhooks_diverge : ¬ ∀ (h : StripeHistory) (prices : StripePrices) s tr, (stripeSystem h prices).init s →
    (stripeSystem h prices).Run s tr → (∀ e ∈ h.events, e ∈ (last s tr).events.rows) → Converged h prices (last s tr) := by
  intro hall
  have hshown := hall canceled plusPrices noAccount (replay (canceled.next plusPrices) noAccount swapped) init_noAccount
    System.run_replay (by decide +kernel)
  obtain ⟨a, ha, hu, hterms⟩ := hshown (subscriptionEvent "evt_2" 2 .none (.some "canceled")) _
    ⟨by decide +kernel, rfl, by decide +kernel⟩
  have hactive : ∀ a ∈ (last noAccount (replay (canceled.next plusPrices) noAccount swapped)).accounts.rows,
      a.terms.subscriptionStatus = .some "active" := by
    decide +kernel
  have hstatus := hactive a ha
  rw [hterms] at hstatus
  exact absurd hstatus (by decide)

end Nexus.Billing
