import Neuro.Payment
import Neuro.RequestCall

/-! One app process between the store and the server: the subscribers of the
`purchaseUpdated` stream, the premium and nudge screens behind them, and the
requests they post. -/
namespace Neuro.PurchaseStream
open Neuro.Lib Payment RequestCall

/-- `_productIds` of the payment service. -/
def premiumProduct : Platform → String
  | .android => "android.test.purchased"
  | .ios => "com.neuropal.premium"

/-- `_productLists` of the nudge screen. -/
def nudgeProduct : Platform → String
  | .android => "android.test.purchased"
  | .ios => "com.nudge.five"

structure Premium where
  status : Bool := false
  premiumtoken : String := ""
  subdevice : String := ""
  deriving DecidableEq, Repr

structure PremiumScreen where
  mounted : Bool := true
  sendData : Premium := {}
  deriving DecidableEq, Repr

inductive Setup
  | initializing
  | consuming
  | subscribed
  | over
  deriving DecidableEq, Repr

/-- `loader` says whether the loader is in the overlay, `items` whether products
have been loaded. -/
structure NudgeScreen where
  setup : Setup := .initializing
  mounted : Bool := true
  items : Bool := false
  loader : Bool := false
  deriving DecidableEq, Repr

structure Cause where
  screen : Nat
  item : PurchasedItem
  deriving DecidableEq, Repr

/-- `initializing` and `subscriptions` count the calls of `initConnection` that
await the plugin and the subscriptions that have been made; `events` is a history
of the store events. -/
structure App where
  service : PaymentService := {}
  initializing : Nat := 0
  subscriptions : Nat := 0
  proStatusChangedListeners : List Nat := []
  premiumScreens : List PremiumScreen := []
  nudgeScreens : List NudgeScreen := []
  premiumStatus : Outbox Cause Premium := {}
  buyNudge : Outbox Cause Unit := {}
  events : List PurchasedItem := []
  deriving DecidableEq, Repr

inductive Action
  | initConnection
  | initialized
  | openPremium
  | closePremium (screen : Nat)
  | openNudge
  | nudgeInitialized (screen : Nat)
  | nudgeConsumed (screen : Nat)
  | productsLoaded (screen : Nat) (found : Bool)
  | tapBuy (screen : Nat)
  | closeNudge (screen : Nat)
  | purchaseUpdated (item : PurchasedItem)
  | purchaseError (message : String)
  | verified (handler : Nat)
  | premiumCall (call : Nat) (r : Resume)
  | nudgeCall (call : Nat) (r : Resume)
  deriving DecidableEq, Repr

namespace NudgeScreen
variable (n : NudgeScreen)

/-- After `initialize()` a screen that is gone gives up. -/
def initialized : Option NudgeScreen :=
  if n.setup = .initializing then
    some {n with setup := if n.mounted then .consuming else .over}
  else none

/-- After `consumeAll()` nothing asks again whether the screen is still there. -/
def consumed : Option NudgeScreen :=
  if n.setup = .consuming then some {n with setup := .subscribed} else none

def productsLoaded (found : Bool) : Option NudgeScreen :=
  if n.setup = .subscribed then some {n with items := found} else none

/-- Without products the loader is removed again at once. -/
def tapBuy : Option NudgeScreen :=
  if n.mounted ∧ n.loader = false then some {n with loader := n.items} else none

/-- `dispose` cancels the subscriptions; before they are made it throws. -/
def close : Option NudgeScreen :=
  if n.mounted then
    some {n with mounted := false, setup := if n.setup = .subscribed then .over else n.setup}
  else none

/-- The listener calls `buyNudge`: removing a loader that is not shown throws, and
so does the context of a screen that is gone. -/
def reacts : Bool := n.setup = .subscribed && n.loader && n.mounted

/-- What the listener leaves behind: `buyNudge` inserts the loader again. -/
def purchaseUpdated : NudgeScreen :=
  if n.setup = .subscribed then {n with loader := n.reacts} else n

def purchaseError : NudgeScreen :=
  if n.setup = .subscribed then {n with loader := false} else n

end NudgeScreen

namespace App
variable (platform : Platform) (s : App)

/-- The callback a premium screen has registered; it stays when the screen goes. -/
def callbackPro (item : PurchasedItem) (screen : Nat) : App :=
  {s with
    premiumScreens := s.premiumScreens.modify screen fun p =>
      {p with sendData := ⟨true,s.service.premiumtoken,s.service.subdevice⟩}
    premiumStatus := s.premiumStatus.start ⟨screen,item⟩}

def reacting : List Nat :=
  (List.range s.nudgeScreens.length).filter fun i => s.nudgeScreens[i]?.any NudgeScreen.reacts

/-- Every subscription of the service runs the handler. -/
def handled (item : PurchasedItem) : PaymentService :=
  (fun service => service.handlePurchaseUpdate platform item)^[s.subscriptions] s.service

def purchaseUpdated (item : PurchasedItem) : App :=
  {s with
    service := s.handled platform item
    nudgeScreens := s.nudgeScreens.map NudgeScreen.purchaseUpdated
    buyNudge := s.reacting.foldl (fun o screen => o.start ⟨screen,item⟩) s.buyNudge
    events := s.events ++ [item]}

def verified (handler : Nat) : Option App :=
  s.service.verifying[handler]?.bind fun v => (s.service.verified handler).map fun service =>
    let t := {s with service := service}
    if v.isValid then
      s.proStatusChangedListeners.foldl (fun app screen => app.callbackPro v.item screen) t
    else t

def nudge (screen : Nat) (f : NudgeScreen → Option NudgeScreen) : Option App :=
  s.nudgeScreens[screen]?.bind fun n =>
    (f n).map fun next => {s with nudgeScreens := s.nudgeScreens.set screen next}

def body (cause : Cause) : Premium := (s.premiumScreens[cause.screen]?.map (·.sendData)).getD {}

def loaderOff (cause : Cause) : Resume → List NudgeScreen
  | .connected false | .responded =>
    s.nudgeScreens.modify cause.screen fun n => {n with loader := false}
  | .connected true | .prefsLoaded => s.nudgeScreens

def nudgeCall (call : Nat) (r : Resume) : Option App :=
  s.buyNudge.calls[call]?.bind fun c => (s.buyNudge.resume (fun _ => ()) call r).map fun o =>
    {s with buyNudge := o, nudgeScreens := s.loaderOff c.1 r}

def step : Action → Option App
  | .initConnection => some {s with initializing := s.initializing + 1}
  | .initialized => if s.initializing = 0 then none else
    some {s with initializing := s.initializing - 1, subscriptions := s.subscriptions + 1}
  | .openPremium => some {s with
    premiumScreens := s.premiumScreens ++ [{}]
    proStatusChangedListeners := s.proStatusChangedListeners ++ [s.premiumScreens.length]}
  | .closePremium screen => some {s with
    premiumScreens := s.premiumScreens.modify screen fun p => {p with mounted := false}}
  | .openNudge => some {s with nudgeScreens := s.nudgeScreens ++ [{}]}
  | .nudgeInitialized screen => s.nudge screen NudgeScreen.initialized
  | .nudgeConsumed screen => s.nudge screen NudgeScreen.consumed
  | .productsLoaded screen found => s.nudge screen fun n => n.productsLoaded found
  | .tapBuy screen => s.nudge screen NudgeScreen.tapBuy
  | .closeNudge screen => s.nudge screen NudgeScreen.close
  | .purchaseUpdated item => some (s.purchaseUpdated platform item)
  | .purchaseError message => some {s with
    service := s.service.callErrorListeners message
    nudgeScreens := s.nudgeScreens.map NudgeScreen.purchaseError}
  | .verified handler => s.verified handler
  | .premiumCall call r => (s.premiumStatus.resume s.body call r).map fun o =>
    {s with premiumStatus := o}
  | .nudgeCall call r => s.nudgeCall call r

end App

structure SamePurchases (s t : PaymentService) : Prop where
  verifying : t.verifying = s.verifying
  granted : t.granted = s.granted
  pro : t.isProUser = s.isProUser

/-- The handlers of one event: every subscription starts a verification of its own
when the event grants, and none does otherwise. -/
theorem handled_service (platform : Platform) (s : App) (item : PurchasedItem) :
    let service := s.handled platform item
    service.verifying = s.service.verifying ++
      (if item.grants platform then List.replicate s.subscriptions ⟨item,true⟩ else []) ∧
    service.granted = s.service.granted ∧ service.isProUser = s.service.isProUser := by
  unfold App.handled
  generalize s.subscriptions = n
  induction n with
  | zero => simp
  | succ n ih =>
    obtain ⟨verifying,granted,pro⟩ := ih
    rw [Function.iterate_succ_apply']
    rcases handle_cases platform
        ((fun service => service.handlePurchaseUpdate platform item)^[n] s.service) item with
      ⟨grants,_,token,device,next⟩ | ⟨other,errors,next⟩
    · rw [next]
      refine ⟨?_,granted,pro⟩
      simp only [verifying,grants,if_true,List.replicate_succ',List.append_assoc]
    · rw [next]
      refine ⟨?_,granted,pro⟩
      simpa only [other,Bool.false_eq_true,if_false] using verifying

theorem callbackPro_fold (item : PurchasedItem) (listeners : List Nat) (s : App) :
    let t := listeners.foldl (fun app screen => app.callbackPro item screen) s
    t.service = s.service ∧ t.buyNudge = s.buyNudge ∧ t.events = s.events ∧
      t.premiumStatus.tags = s.premiumStatus.tags ++ listeners.map (fun screen => ⟨screen,item⟩) ∧
      t.premiumStatus.sent = s.premiumStatus.sent ∧
      (s.premiumStatus.Balanced → t.premiumStatus.Balanced) := by
  induction listeners generalizing s with
  | nil => simp
  | cons screen rest ih =>
    obtain ⟨service,nudge,events,tags,sent,balanced⟩ := ih (s.callbackPro item screen)
    refine ⟨service,nudge,events,?_,sent,?_⟩
    · rw [List.foldl_cons,tags]
      simp [App.callbackPro,Outbox.tags,Outbox.start]
    · exact fun held => balanced (Outbox.balanced_start held _)

theorem buyNudge_fold (item : PurchasedItem) (screens : List Nat) (o : Outbox Cause Unit) :
    let next := screens.foldl (fun o screen => o.start ⟨screen,item⟩) o
    next.tags = o.tags ++ screens.map (fun screen => ⟨screen,item⟩) ∧ next.sent = o.sent ∧
      (o.Balanced → next.Balanced) := by
  induction screens generalizing o with
  | nil => simp
  | cons screen rest ih =>
    obtain ⟨tags,sent,balanced⟩ := ih (o.start ⟨screen,item⟩)
    refine ⟨?_,sent,fun held => balanced (Outbox.balanced_start held _)⟩
    rw [List.foldl_cons,tags]
    simp [Outbox.tags,Outbox.start]

def Action.event : Action → List PurchasedItem
  | .purchaseUpdated item => [item]
  | _ => []

inductive Stepped (platform : Platform) (s : App) : Action → App → Prop
  | quiet (a t) (other : a.event = []) (service : SamePurchases s.service t.service)
      (premium : t.premiumStatus = s.premiumStatus) (nudge : t.buyNudge = s.buyNudge)
      (events : t.events = s.events) : Stepped platform s a t
  | event (item) : Stepped platform s (.purchaseUpdated item) (s.purchaseUpdated platform item)
  | verified (handler v t) (found : s.service.verifying[handler]? = some v)
      (verifying : t.service.verifying = s.service.verifying.eraseIdx handler)
      (granted : t.service.granted = s.service.granted ++ [v.item])
      (tags : t.premiumStatus.tags = s.premiumStatus.tags ++
        s.proStatusChangedListeners.map fun screen => ⟨screen,v.item⟩)
      (sent : t.premiumStatus.sent = s.premiumStatus.sent)
      (balanced : s.premiumStatus.Balanced → t.premiumStatus.Balanced)
      (nudge : t.buyNudge = s.buyNudge) (events : t.events = s.events) :
      Stepped platform s (.verified handler) t
  | premiumCall (call r t) (resumed : s.premiumStatus.resume s.body call r = some t.premiumStatus)
      (service : t.service = s.service) (nudge : t.buyNudge = s.buyNudge)
      (events : t.events = s.events) : Stepped platform s (.premiumCall call r) t
  | nudgeCall (call r t) (resumed : s.buyNudge.resume (fun _ => ()) call r = some t.buyNudge)
      (service : t.service = s.service) (premium : t.premiumStatus = s.premiumStatus)
      (events : t.events = s.events) : Stepped platform s (.nudgeCall call r) t

theorem nudge_stepped {platform : Platform} {s t : App} {screen : Nat}
    {f : NudgeScreen → Option NudgeScreen} (moved : s.nudge screen f = some t) {a : Action}
    (other : a.event = []) : Stepped platform s a t := by
  obtain ⟨n,_,moved⟩ := Option.bind_eq_some_iff.mp moved
  obtain ⟨next,_,rfl⟩ := Option.map_eq_some_iff.mp moved
  exact .quiet a _ other ⟨rfl,rfl,rfl⟩ rfl rfl rfl

theorem step_cases {platform : Platform} {s t : App} {a : Action}
    (valid : ∀ v ∈ s.service.verifying, v.isValid = true) (stepped : s.step platform a = some t) :
    Stepped platform s a t := by
  cases a with
  | purchaseUpdated item =>
    cases Option.some.inj stepped
    exact .event item
  | verified handler =>
    obtain ⟨v,found,granting⟩ := Option.bind_eq_some_iff.mp stepped
    obtain ⟨service,ran,rfl⟩ := Option.map_eq_some_iff.mp granting
    have isValid := valid v (List.mem_of_getElem? found)
    obtain ⟨_,again,rfl⟩ := Option.map_eq_some_iff.mp ran
    obtain rfl := Option.some.inj (found.symm.trans again)
    simp only [isValid,if_true]
    obtain ⟨same,nudge,events,tags,sent,balanced⟩ := callbackPro_fold v.item
      s.proStatusChangedListeners {s with service := (PaymentService.finishTransaction
        {s.service with verifying := s.service.verifying.eraseIdx handler} v.item).grant v.item}
    refine .verified handler v _ found ?_ ?_ tags sent balanced nudge events
    · rw [same]
      rfl
    · rw [same]
      rfl
  | premiumCall call r =>
    obtain ⟨o,resumed,rfl⟩ := Option.map_eq_some_iff.mp stepped
    exact .premiumCall call r _ resumed rfl rfl rfl
  | nudgeCall call r =>
    obtain ⟨c,_,moved⟩ := Option.bind_eq_some_iff.mp stepped
    obtain ⟨o,resumed,rfl⟩ := Option.map_eq_some_iff.mp moved
    exact .nudgeCall call r _ resumed rfl rfl rfl
  | nudgeInitialized screen => exact nudge_stepped stepped rfl
  | nudgeConsumed screen => exact nudge_stepped stepped rfl
  | productsLoaded screen found => exact nudge_stepped stepped rfl
  | tapBuy screen => exact nudge_stepped stepped rfl
  | closeNudge screen => exact nudge_stepped stepped rfl
  | initialized =>
    obtain ⟨_,rfl⟩ : _ ∧ _ = t := by simpa [App.step] using stepped
    exact .quiet _ _ rfl ⟨rfl,rfl,rfl⟩ rfl rfl rfl
  | initConnection | openPremium | closePremium | openNudge | purchaseError =>
    cases Option.some.inj stepped
    exact .quiet _ _ rfl ⟨rfl,rfl,rfl⟩ rfl rfl rfl

theorem valid_step {platform : Platform} {s t : App} {a : Action}
    (valid : ∀ v ∈ s.service.verifying, v.isValid = true) (stepped : s.step platform a = some t) :
    ∀ v ∈ t.service.verifying, v.isValid = true := by
  cases step_cases valid stepped with
  | quiet _ _ _ service => rwa [service.verifying]
  | event item =>
    obtain ⟨verifying,_,_⟩ := handled_service platform s item
    intro v member
    change v ∈ (s.handled platform item).verifying at member
    rw [verifying] at member
    rcases List.mem_append.mp member with old | new
    · exact valid v old
    · split at new
      · rw [List.eq_of_mem_replicate new]
      · contradiction
  | verified handler v _ _ verifying =>
    rw [verifying]
    exact fun v member => valid v (List.mem_of_mem_eraseIdx member)
  | premiumCall _ _ _ _ service => rwa [service]
  | nudgeCall _ _ _ _ service => rwa [service]

/-- What every run keeps: premium comes with a grant, and what is posted was asked. -/
structure Sound (s : App) : Prop where
  valid : ∀ v ∈ s.service.verifying, v.isValid = true
  pro : s.service.isProUser = true → s.service.granted ≠ []
  premiumPosted : ∀ request ∈ s.premiumStatus.sent, request.1 ∈ s.premiumStatus.tags
  nudgePosted : ∀ request ∈ s.buyNudge.sent, request.1 ∈ s.buyNudge.tags

theorem sound_step {platform : Platform} {s t : App} {a : Action} (sound : Sound s)
    (stepped : s.step platform a = some t) : Sound t := by
  have valid := valid_step sound.valid stepped
  cases step_cases sound.valid stepped with
  | quiet _ _ _ service premium nudge _ =>
    refine ⟨valid,?_,premium ▸ sound.premiumPosted,nudge ▸ sound.nudgePosted⟩
    rw [service.pro,service.granted]
    exact sound.pro
  | event item =>
    obtain ⟨_,granted,pro⟩ := handled_service platform s item
    obtain ⟨tags,sent,_⟩ := buyNudge_fold item s.reacting s.buyNudge
    refine ⟨valid,?_,sound.premiumPosted,?_⟩
    · simp only [App.purchaseUpdated,pro,granted]
      exact sound.pro
    · simp only [App.purchaseUpdated,sent,tags]
      exact fun request member => List.mem_append_left _ (sound.nudgePosted request member)
  | verified handler v _ _ _ granted tags sent _ nudge _ =>
    refine ⟨valid,by simp [granted],?_,nudge ▸ sound.nudgePosted⟩
    rw [sent,tags]
    exact fun request member => List.mem_append_left _ (sound.premiumPosted request member)
  | premiumCall _ _ _ resumed service nudge _ =>
    exact ⟨valid,service ▸ sound.pro,Outbox.posted_resume sound.premiumPosted resumed,
      nudge ▸ sound.nudgePosted⟩
  | nudgeCall _ _ _ resumed service premium _ =>
    exact ⟨valid,service ▸ sound.pro,premium ▸ sound.premiumPosted,
      Outbox.posted_resume sound.nudgePosted resumed⟩

/-- The purchases that premium has been or will be activated for. -/
def App.premiumItems (s : App) : List PurchasedItem :=
  s.service.verifying.map Verification.item ++ s.service.granted ++
    s.premiumStatus.tags.map Cause.item

def App.nudgeItems (s : App) : List PurchasedItem := s.buyNudge.tags.map Cause.item

/-- Only an event adds to either: one that grants, for each subscription, and one that
finds a screen with its loader shown, for each of these. -/
theorem items_step {platform : Platform} {s t : App} {a : Action} (sound : Sound s)
    (stepped : s.step platform a = some t) (item : PurchasedItem) :
    (item ∈ t.premiumItems → item ∈ s.premiumItems ∨
      a = .purchaseUpdated item ∧ 0 < s.subscriptions ∧ item.grants platform = true) ∧
    (item ∈ t.nudgeItems → item ∈ s.nudgeItems ∨ a = .purchaseUpdated item ∧ s.reacting ≠ []) := by
  unfold App.premiumItems App.nudgeItems
  cases step_cases sound.valid stepped with
  | quiet _ _ _ service premium nudge _ =>
    rw [service.verifying,service.granted,premium,nudge]
    exact ⟨.inl,.inl⟩
  | event event =>
    obtain ⟨verifying,granted,_⟩ := handled_service platform s event
    obtain ⟨tags,_,_⟩ := buyNudge_fold event s.reacting s.buyNudge
    simp only [App.purchaseUpdated,verifying,granted,tags,List.mem_append,List.map_append,
      List.map_map]
    refine ⟨?_,?_⟩
    · rintro (((old | new) | old) | old)
      · exact .inl (.inl (.inl old))
      · obtain ⟨v,member,rfl⟩ := List.mem_map.mp new
        split at member
        next grants =>
          obtain ⟨some,rfl⟩ := List.mem_replicate.mp member
          exact .inr ⟨rfl,Nat.pos_of_ne_zero some,grants⟩
        next => contradiction
      · exact .inl (.inl (.inr old))
      · exact .inl (.inr old)
    · rintro (old | new)
      · exact .inl old
      · obtain ⟨screen,reacts,rfl⟩ := List.mem_map.mp new
        exact .inr ⟨rfl,List.ne_nil_of_mem reacts⟩
  | verified handler v _ found rest granted tags _ _ nudge _ =>
    have own : v.item ∈ s.service.verifying.map Verification.item :=
      List.mem_map_of_mem (List.mem_of_getElem? found)
    rw [rest,granted,tags,nudge]
    refine ⟨fun member => .inl ?_,.inl⟩
    simp only [List.mem_append,List.map_append,List.map_map] at member ⊢
    rcases member with (old | old | new) | old | new
    · obtain ⟨w,member,rfl⟩ := List.mem_map.mp old
      exact .inl (.inl (List.mem_map_of_mem (List.mem_of_mem_eraseIdx member)))
    · exact .inl (.inr old)
    · exact .inl (.inl (List.mem_singleton.mp new ▸ own))
    · exact .inr old
    · obtain ⟨screen,_,rfl⟩ := List.mem_map.mp new
      exact .inl (.inl own)
  | premiumCall _ _ _ resumed service nudge _ =>
    rw [service,Outbox.tags_resume resumed,nudge]
    exact ⟨.inl,.inl⟩
  | nudgeCall _ _ _ resumed service premium _ =>
    rw [service,Outbox.tags_resume resumed,premium]
    exact ⟨.inl,.inl⟩

theorem events_step {platform : Platform} {s t : App} {a : Action} (sound : Sound s)
    (stepped : s.step platform a = some t) : t.events = s.events ++ a.event := by
  cases step_cases sound.valid stepped with
  | event item => rfl
  | quiet _ _ other _ _ _ events => rw [events,other,List.append_nil]
  | verified _ _ _ _ _ _ _ _ _ _ events => exact events.trans (List.append_nil _).symm
  | premiumCall _ _ _ _ _ _ events => exact events.trans (List.append_nil _).symm
  | nudgeCall _ _ _ _ _ _ events => exact events.trans (List.append_nil _).symm

def bought (productId transactionId : String) : PurchasedItem :=
  ⟨productId,transactionId,some "receipt",none,some .purchased,none,none⟩

end Neuro.PurchaseStream
