/-
`process_stripe_webhook` of `services/billing.py`, and deliveries that overlap.

A delivery is one transaction at READ COMMITTED: it looks its event up, then the
account under one key after another, and writes at its commit. The session
flushes an account's columns that differ from what it loaded and no others, so a
column another delivery changed in between stays as that one left it. A payload
that makes the code raise (a metadata id that is no UUID, a period that is no
number) writes nothing and is a delivery that is dropped, as one with a bad
signature is. The row of a processed event stands for the event.
-/
import Nexus.Base
import Nexus.Lib.Constrained
import Nexus.Lib.Run

namespace Nexus.Billing
open Relational Transition

inductive PlanTier
  | free
  | plus
  | aiPlus
  | aiPro
  deriving DecidableEq, Repr

structure StripePrices where
  plus : Option String
  aiPlus : Option String
  aiPro : Option String

def planForPriceId (prices : StripePrices) : Option String → PlanTier
  | .none => .free
  | .some priceId =>
    if prices.plus = .some priceId then .plus
    else if prices.aiPlus = .some priceId then .aiPlus
    else if prices.aiPro = .some priceId then .aiPro
    else .free

/-! ## Events -/

/-- A `checkout.session.completed` object. A field Stripe leaves empty is absent. -/
structure CheckoutSession where
  nexusUserId : Option Uuid
  customer : Option String
  subscription : Option String
  deriving DecidableEq

/-- The object of a `customer.subscription.*` event; the price is the first item's. -/
structure Subscription where
  customer : Option String
  id : Option String
  nexusUserId : Option Uuid
  priceId : Option String
  status : Option String
  currentPeriodStart : Option Instant
  currentPeriodEnd : Option Instant
  cancelAtPeriodEnd : Bool
  deriving DecidableEq

inductive StripeObject
  | checkout (session : CheckoutSession)
  | subscription (subscription : Subscription)
  | other
  deriving DecidableEq

/-- A signed event; `created` is its place in the order Stripe created events,
which no statement reads. -/
structure StripeEvent where
  id : String
  created : Nat
  object : StripeObject
  deriving DecidableEq

/-! ## Accounts -/

structure BillingAccount where
  id : Uuid
  userId : Uuid
  stripeCustomerId : Option String
  stripeSubscriptionId : Option String
  stripePriceId : Option String
  planTier : PlanTier
  subscriptionStatus : Option String
  currentPeriodStart : Option Instant
  currentPeriodEnd : Option Instant
  cancelAtPeriodEnd : Bool
  updatedAt : Instant
  deriving DecidableEq

/-- `ck_billing_accounts_subscription_status` -/
def subscriptionStatuses : List String :=
  ["incomplete", "incomplete_expired", "trialing", "active", "past_due", "canceled", "unpaid", "paused"]

/-- A unique column: nulls do not clash. -/
def sameSome (a b : Option String) : Bool := a.isSome && a == b

def billingAccounts : Schema BillingAccount Uuid where
  key := BillingAccount.id
  check a := a.subscriptionStatus.all subscriptionStatuses.contains
  clash a b := a.userId == b.userId || sameSome a.stripeCustomerId b.stripeCustomerId ||
    sameSome a.stripeSubscriptionId b.stripeSubscriptionId

/-- `BillingAccount(user_id=…, plan_tier="free")` -/
def newAccount (id userId : Uuid) (now : Instant) : BillingAccount :=
  ⟨id, userId, .none, .none, .none, .free, .none, .none, .none, false, now⟩

/-- A key an account is looked up under. -/
inductive AccountKey
  | subscription (id : String)
  | customer (id : String)
  | user (userId : Uuid)
  deriving DecidableEq

def AccountKey.matches : AccountKey → BillingAccount → Bool
  | .subscription id, a => a.stripeSubscriptionId == .some id
  | .customer id, a => a.stripeCustomerId == .some id
  | .user userId, a => a.userId == userId

/-- The lookups of a sync, each made when the ones before found nothing. -/
def StripeObject.keys : StripeObject → List AccountKey
  | .checkout session => (session.customer.map AccountKey.customer).toList ++ (session.nexusUserId.map AccountKey.user).toList
  | .subscription s => (s.id.map AccountKey.subscription).toList ++ (s.customer.map AccountKey.customer).toList ++
      (s.nexusUserId.map AccountKey.user).toList
  | .other => []

def StripeObject.nexusUserId : StripeObject → Option Uuid
  | .checkout session => session.nexusUserId
  | .subscription s => s.nexusUserId
  | .other => .none

/-- What `_sync_checkout_session` and `_sync_subscription` assign. -/
def StripeObject.assign (prices : StripePrices) (now : Instant) : StripeObject → BillingAccount → BillingAccount
  | .checkout session, a => { a with
      stripeCustomerId := session.customer <|> a.stripeCustomerId
      stripeSubscriptionId := session.subscription <|> a.stripeSubscriptionId
      updatedAt := now }
  | .subscription s, a => { a with
      stripeCustomerId := s.customer <|> a.stripeCustomerId
      stripeSubscriptionId := s.id <|> a.stripeSubscriptionId
      stripePriceId := s.priceId
      planTier := planForPriceId prices s.priceId
      subscriptionStatus := s.status
      currentPeriodStart := s.currentPeriodStart
      currentPeriodEnd := s.currentPeriodEnd
      cancelAtPeriodEnd := s.cancelAtPeriodEnd
      updatedAt := now }
  | .other, a => a

/-- A column after a flush: what was assigned, where that is not what was loaded. -/
def written {α : Type} [DecidableEq α] (loaded assigned current : α) : α := if assigned = loaded then current else assigned

/-- The row after a flush of the changed columns. -/
def flushed (loaded assigned current : BillingAccount) : BillingAccount where
  id := current.id
  userId := current.userId
  stripeCustomerId := written loaded.stripeCustomerId assigned.stripeCustomerId current.stripeCustomerId
  stripeSubscriptionId := written loaded.stripeSubscriptionId assigned.stripeSubscriptionId current.stripeSubscriptionId
  stripePriceId := written loaded.stripePriceId assigned.stripePriceId current.stripePriceId
  planTier := written loaded.planTier assigned.planTier current.planTier
  subscriptionStatus := written loaded.subscriptionStatus assigned.subscriptionStatus current.subscriptionStatus
  currentPeriodStart := written loaded.currentPeriodStart assigned.currentPeriodStart current.currentPeriodStart
  currentPeriodEnd := written loaded.currentPeriodEnd assigned.currentPeriodEnd current.currentPeriodEnd
  cancelAtPeriodEnd := written loaded.cancelAtPeriodEnd assigned.cancelAtPeriodEnd current.cancelAtPeriodEnd
  updatedAt := written loaded.updatedAt assigned.updatedAt current.updatedAt

/-! ## Deliveries -/

/-- A delivery past the check of its event: the account it loaded, or the
lookups it still makes. -/
structure Delivery where
  event : StripeEvent
  lookups : List AccountKey
  loaded : Option BillingAccount

structure WebhookState where
  accounts : Store billingAccounts
  /-- `stripe_webhook_events`, the last processed first -/
  events : Table StripeEvent StripeEvent.id
  deliveries : Nat → Option Delivery

inductive WebhookStep
  | deliver (delivery : Nat) (event : StripeEvent)
  | lookup (delivery : Nat)
  | commit (delivery : Nat) (now : Instant) (newId : Uuid)
  | drop (delivery : Nat)

/-- The statements of a commit; a violated constraint takes all of them back. -/
def commitDelivery (prices : StripePrices) (accounts : Store billingAccounts) (events : Table StripeEvent StripeEvent.id)
    (d : Delivery) (now : Instant) (newId : Uuid) : Option (Store billingAccounts × Table StripeEvent StripeEvent.id) :=
  let synced := match d.loaded, d.event.object.nexusUserId with
    | .some loaded, _ => accounts.update? loaded.id (flushed loaded (d.event.object.assign prices now loaded))
    | .none, .some userId => accounts.insert? (d.event.object.assign prices now (newAccount newId userId now))
    | .none, .none => .some accounts
  match synced, events.insert? d.event with
  | .some accounts, .some events => .some (accounts, events)
  | _, _ => .none

namespace WebhookState

def setDelivery (s : WebhookState) (delivery : Nat) (d : Option Delivery) : WebhookState :=
  { s with deliveries := Function.update s.deliveries delivery d }

/-- One statement, commit or loss of a delivery. -/
def next (prices : StripePrices) (s : WebhookState) : WebhookStep → Option WebhookState
  | .deliver delivery event =>
    match s.deliveries delivery with
    | .some _ => .none
    | .none =>
      -- answered with `processed: False`
      if (s.events.find? event.id).isSome then .some s
      else .some (s.setDelivery delivery (.some ⟨event, event.object.keys, .none⟩))
  | .lookup delivery =>
    match s.deliveries delivery with
    | .some ⟨event, key :: lookups, .none⟩ =>
      .some (s.setDelivery delivery (.some ⟨event, lookups, s.accounts.rows.find? key.matches⟩))
    | _ => .none
  | .commit delivery now newId =>
    match s.deliveries delivery with
    | .none => .none
    | .some d =>
      if d.loaded.isNone && !d.lookups.isEmpty then .none
      else match commitDelivery prices s.accounts s.events d now newId with
        | .none => .some (s.setDelivery delivery .none)
        | .some (accounts, events) => .some ({ s with accounts, events }.setDelivery delivery .none)
  | .drop delivery => .some (s.setDelivery delivery .none)

end WebhookState

end Nexus.Billing
