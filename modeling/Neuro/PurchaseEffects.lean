import Neuro.PurchaseStream

/-! How often a purchase takes effect: once for each subscription, listener and
screen that meets one of its events, and for each redelivery. -/
namespace Neuro.PurchaseEffects
open Neuro.Lib Payment PurchaseStream RequestCall

def same (event item : PurchasedItem) : Bool :=
  item.productId = event.productId && item.transactionId = event.transactionId

def times (event : PurchasedItem) (items : List PurchasedItem) : Nat := items.countP (same event)

/-- The premium screen asks by `requestSubscription`, the nudge screen by `requestPurchase`. -/
inductive Request
  | subscription
  | purchase
  deriving DecidableEq, Repr

section Asked
variable (platform : Platform) (asked : String → Request)

/-- Both products have one id on Android; there the transactions differ in how they were asked
for. -/
def isPremium (event : PurchasedItem) : Bool := event.productId = premiumProduct platform &&
  (platform = .ios || asked event.transactionId = .subscription)

def isNudge (event : PurchasedItem) : Bool := event.productId = nudgeProduct platform &&
  (platform = .ios || asked event.transactionId = .purchase)

/-- Every premium transaction that was purchased has caused one premium-status
request and every nudge transaction one buy-nudge request. -/
structure ExactlyOnce (s : App) : Prop where
  premium : ∀ event ∈ s.events, isPremium platform asked event = true →
    event.purchased platform = true →
    times event (s.premiumStatus.sent.map fun request => request.1.item) = 1
  nudge : ∀ event ∈ s.events, isNudge platform asked event = true →
    event.purchased platform = true →
    times event (s.buyNudge.sent.map fun request => request.1.item) = 1

structure Quiet (s : App) : Prop where
  service : s.service.verifying = []
  premium : s.premiumStatus.Quiet
  nudge : s.buyNudge.Quiet

def started (s : App) : List PurchasedItem :=
  s.service.verifying.map Verification.item ++ s.service.granted

def starting (s : App) (event : PurchasedItem) : Nat :=
  if event.grants platform then s.subscriptions else 0

/-- When a premium transaction is reported purchased, this event and those before have met one
subscription; when a nudge transaction is, they have met one screen with its loader shown, and no
event meets a second one. A premium purchase has one listener when its verification is through,
and no request is made offline. -/
def Single (s : App) : PurchaseStream.Action → Prop
  | .purchaseUpdated event =>
    (isPremium platform asked event = true → event.purchased platform = true →
      times event (started s) + starting platform s event = 1) ∧
    (isNudge platform asked event = true →
      times event s.nudgeItems + s.reacting.length ≤ 1 ∧
      (event.purchased platform = true → times event s.nudgeItems + s.reacting.length = 1))
  | .verified handler => ∀ v ∈ s.service.verifying[handler]?,
    isPremium platform asked v.item = true → s.proStatusChangedListeners.length = 1
  | .premiumCall _ r | .nudgeCall _ r => r ≠ .connected false
  | _ => True

instance (s : App) : ∀ a : PurchaseStream.Action, Decidable (Single platform asked s a)
  | .purchaseUpdated _ => inferInstanceAs (Decidable ((_ → _ → _) ∧ (_ → _ ∧ (_ → _))))
  | .verified _ => inferInstanceAs (Decidable (∀ _ ∈ _, _ → _))
  | .premiumCall .. | .nudgeCall .. => inferInstanceAs (Decidable (_ ≠ _))
  | .initConnection | .initialized | .openPremium | .closePremium _ | .openNudge
  | .nudgeInitialized _ | .nudgeConsumed _ | .productsLoaded .. | .tapBuy _ | .closeNudge _
  | .purchaseError _ => inferInstanceAs (Decidable True)

end Asked

section Counting
variable {platform : Platform} {asked : String → Request}

theorem times_append (event : PurchasedItem) (xs ys : List PurchasedItem) :
    times event (xs ++ ys) = times event xs + times event ys := List.countP_append

theorem times_replicate (event item : PurchasedItem) (n : Nat) :
    times event (List.replicate n item) = if same event item then n else 0 := List.countP_replicate

theorem same_self (event : PurchasedItem) : same event event = true := by simp [same]

theorem times_congr {event item : PurchasedItem} (equal : same event item = true)
    (items : List PurchasedItem) : times item items = times event items := by
  simp only [same,Bool.and_eq_true,decide_eq_true_eq] at equal
  unfold times same
  rw [equal.1,equal.2]

theorem product_of_same {event item : PurchasedItem} (equal : same event item = true) :
    isPremium platform asked item = isPremium platform asked event ∧
      isNudge platform asked item = isNudge platform asked event := by
  simp only [same,Bool.and_eq_true,decide_eq_true_eq] at equal
  unfold isPremium isNudge
  rw [equal.1,equal.2]
  exact ⟨rfl,rfl⟩

structure Counted (platform : Platform) (asked : String → Request) (s : App) : Prop where
  sound : Sound s
  premiumBalanced : s.premiumStatus.Balanced
  nudgeBalanced : s.buyNudge.Balanced
  started : ∀ event ∈ s.events, isPremium platform asked event = true →
    event.purchased platform = true → times event (started s) = 1
  listened : ∀ event, isPremium platform asked event = true →
    times event (s.premiumStatus.tags.map Cause.item) = times event s.service.granted
  nudge : ∀ event ∈ s.events, isNudge platform asked event = true →
    event.purchased platform = true → times event s.nudgeItems = 1

theorem started_event (platform : Platform) (s : App) (item event : PurchasedItem) :
    times event (started (s.purchaseUpdated platform item)) =
      times event (started s) + if same event item then starting platform s item else 0 := by
  obtain ⟨verifying,granted,_⟩ := handled_service platform s item
  simp only [started,App.purchaseUpdated,verifying,granted,times_append,List.map_append]
  have fresh : times event ((if item.grants platform = true then
      List.replicate s.subscriptions (⟨item,true⟩ : Verification) else []).map Verification.item) =
      if same event item then starting platform s item else 0 := by
    unfold starting
    split
    · rw [List.map_replicate,times_replicate]
    · simp [times]
  rw [fresh]
  omega

theorem item_causes (screens : List Nat) (item : PurchasedItem) :
    screens.map (Cause.item ∘ fun screen => ⟨screen,item⟩) =
      List.replicate screens.length item := by
  simp [Function.comp_def]

theorem nudge_event (platform : Platform) (s : App) (item event : PurchasedItem) :
    times event (s.purchaseUpdated platform item).nudgeItems =
      times event s.nudgeItems + if same event item then s.reacting.length else 0 := by
  obtain ⟨tags,_,_⟩ := buyNudge_fold item s.reacting s.buyNudge
  simp only [App.nudgeItems,App.purchaseUpdated,tags,List.map_append,List.map_map,times_append]
  rw [item_causes,times_replicate]

theorem counted_event {s : App} (counted : Counted platform asked s)
    {item : PurchasedItem} (single : Single platform asked s (.purchaseUpdated item)) :
    Counted platform asked (s.purchaseUpdated platform item) := by
  obtain ⟨premium,nudge⟩ := single
  obtain ⟨_,granted,_⟩ := handled_service platform s item
  have stepped : s.step platform (.purchaseUpdated item) =
      some (s.purchaseUpdated platform item) := rfl
  refine ⟨sound_step counted.sound stepped,counted.premiumBalanced,?_,?_,?_,?_⟩
  · exact (buyNudge_fold item s.reacting s.buyNudge).2.2 counted.nudgeBalanced
  · intro event member product bought
    rw [started_event]
    rcases List.mem_append.mp member with old | new
    · have once := counted.started event old product bought
      split
      next equal =>
        -- the event is of a transaction whose verification was started before
        have none : starting platform s item = 0 := by
          cases paid : item.purchased platform with
          | false => simp [starting,PurchasedItem.grants,paid]
          | true =>
            have total := premium ((product_of_same equal).1.trans product) paid
            rw [times_congr equal] at total
            omega
        omega
      next => exact once
    · obtain rfl := List.mem_singleton.mp new
      rw [same_self,if_pos rfl]
      exact premium product bought
  · intro event product
    change _ = times event (s.handled platform item).granted
    rw [granted]
    exact counted.listened event product
  · intro event member product bought
    rw [nudge_event]
    rcases List.mem_append.mp member with old | new
    · have once := counted.nudge event old product bought
      split
      next equal =>
        have total := (nudge ((product_of_same equal).2.trans product)).1
        rw [times_congr equal] at total
        omega
      next => exact once
    · obtain rfl := List.mem_singleton.mp new
      rw [same_self,if_pos rfl]
      exact (nudge product).2 bought

theorem started_verified {s t : App} {handler : Nat} {v : Verification} {event : PurchasedItem}
    (found : s.service.verifying[handler]? = some v)
    (rest : t.service.verifying = s.service.verifying.eraseIdx handler)
    (granted : t.service.granted = s.service.granted ++ [v.item]) :
    times event (started t) = times event (started s) := by
  obtain ⟨bound,rfl⟩ := List.getElem?_eq_some_iff.mp found
  have taken := (List.getElem_cons_eraseIdx_perm bound).map Verification.item
  have total := taken.countP_eq (same event)
  simp only [List.map_cons,List.countP_cons] at total
  simp only [started,rest,granted,times,List.countP_append,List.countP_cons,List.countP_nil]
  omega

theorem counted_step {s t : App} {a : PurchaseStream.Action}
    (counted : Counted platform asked s) (single : Single platform asked s a)
    (stepped : s.step platform a = some t) : Counted platform asked t := by
  have sound := sound_step counted.sound stepped
  cases step_cases counted.sound.valid stepped with
  | event item => exact counted_event counted single
  | quiet _ _ _ service premium nudge events =>
    have started : started t = started s := by
      simp only [PurchaseEffects.started,service.verifying,service.granted]
    refine ⟨sound,premium ▸ counted.premiumBalanced,nudge ▸ counted.nudgeBalanced,?_,?_,?_⟩
    · rw [events,started]
      exact counted.started
    · rw [premium,service.granted]
      exact counted.listened
    · rw [events,App.nudgeItems,nudge]
      exact counted.nudge
  | verified handler v _ found rest granted tags sent balanced nudge events =>
    refine ⟨sound,balanced counted.premiumBalanced,nudge ▸ counted.nudgeBalanced,?_,?_,?_⟩
    · rw [events]
      intro event member product bought
      rw [started_verified found rest granted]
      exact counted.started event member product bought
    · intro event product
      rw [tags,granted,List.map_append,times_append,times_append,counted.listened event product,
        List.map_map]
      rw [item_causes,times_replicate]
      cases equal : same event v.item with
      | false => simp [times,equal]
      | true =>
        have one := single v found ((product_of_same equal).1.trans product)
        simp [times,equal,one]
    · rw [events,App.nudgeItems,nudge]
      exact counted.nudge
  | premiumCall call r _ resumed service nudge events =>
    have started : started t = started s := by
      simp only [PurchaseEffects.started,service]
    refine ⟨sound,?_,nudge ▸ counted.nudgeBalanced,?_,?_,?_⟩
    · exact Outbox.balanced_resume counted.premiumBalanced single resumed
    · rw [events,started]
      exact counted.started
    · rw [Outbox.tags_resume resumed,service]
      exact counted.listened
    · rw [events,App.nudgeItems,nudge]
      exact counted.nudge
  | nudgeCall call r _ resumed service premium events =>
    have started : started t = started s := by
      simp only [PurchaseEffects.started,service]
    refine ⟨sound,premium ▸ counted.premiumBalanced,?_,?_,?_,?_⟩
    · exact Outbox.balanced_resume counted.nudgeBalanced single resumed
    · rw [events,started]
      exact counted.started
    · rw [premium,service]
      exact counted.listened
    · rw [events,App.nudgeItems,Outbox.tags_resume resumed]
      exact counted.nudge

theorem times_sent {B : Type} {o : Outbox Cause B} (balanced : o.Balanced) (quiet : o.Quiet)
    (event : PurchasedItem) :
    times event (o.sent.map fun request => request.1.item) = times event (o.tags.map Cause.item) := by
  have perm := Multiset.coe_eq_coe.mp (Outbox.sent_of_quiet balanced quiet)
  have items := perm.map Cause.item
  rw [List.map_map] at items
  exact items.countP_eq (same event)

/-- In every run in which every event, verification and connectivity check is single,
each purchase has caused exactly one request when nothing is on its way any more. -/
theorem purchases_take_effect_once {s : App} {actions : List PurchaseStream.Action}
    (run : Run (App.step platform) (Single platform asked) {} actions s) (quiet : Quiet s) :
    ExactlyOnce platform asked s := by
  have start : Counted platform asked {} := by
    refine ⟨⟨?_,?_,?_,?_⟩,rfl,rfl,?_,?_,?_⟩ <;> simp [Outbox.tags]
  have counted := run.invariant (Counted platform asked) start fun _ _ _ => counted_step
  refine ⟨fun event member product bought => ?_,fun event member product bought => ?_⟩
  · have once := counted.started event member product bought
    rw [times_sent counted.premiumBalanced quiet.premium,counted.listened event product]
    simpa [started,quiet.service] using once
  · rw [times_sent counted.nudgeBalanced quiet.nudge]
    exact counted.nudge event member product bought

end Counting

instance (s : App) : Decidable (Quiet s) :=
  decidable_of_iff (s.service.verifying = [] ∧ s.premiumStatus.Quiet ∧ s.buyNudge.Quiet)
    ⟨fun ⟨service,premium,nudge⟩ => ⟨service,premium,nudge⟩,
      fun ⟨service,premium,nudge⟩ => ⟨service,premium,nudge⟩⟩

def acknowledged (transactionId : String) : PurchasedItem :=
  ⟨"android.test.purchased",transactionId,none,some "token",none,some .purchased,some true⟩

def visits : List PurchaseStream.Action :=
  [.initConnection,.initialized,.openPremium,.purchaseUpdated (acknowledged "1"),
    .verified 0,.premiumCall 0 (.connected true),.premiumCall 0 .prefsLoaded,.openNudge,
    .nudgeInitialized 0,.nudgeConsumed 0,.productsLoaded 0 true,.tapBuy 0,
    .purchaseUpdated (acknowledged "2"),.verified 0,.premiumCall 1 (.connected true),
    .premiumCall 1 .prefsLoaded,.nudgeCall 0 (.connected true),.nudgeCall 0 .prefsLoaded]

def subscribedFirst (transactionId : String) : Request :=
  if transactionId = "1" then .subscription else .purchase

theorem purchases_take_effect_once_visits : ∃ s,
    Run (App.step .android) (Single .android subscribedFirst) {} visits s ∧ s.events.length = 2 ∧
      ExactlyOnce .android subscribedFirst s := by
  have computed : ∃ s, Run (App.step .android) (Single .android subscribedFirst) {} visits s ∧
      s.events.length = 2 ∧ Quiet s :=
    Run.exists_of_exec (by decide)
  obtain ⟨s,run,both,quiet⟩ := computed
  exact ⟨s,run,both,purchases_take_effect_once run quiet⟩

/-- After a second `initConnection`, as each login makes one, every premium purchase
is handled twice and posted twice. -/
theorem purchase_takes_effect_twice : ¬ ∀ (platform : Platform) (asked : String → Request)
    (actions : List PurchaseStream.Action) (s : App),
    Run (App.step platform) anyStep {} actions s → Quiet s → ExactlyOnce platform asked s := by
  intro claimed
  let plan := bought "com.neuropal.premium" "1"
  have computed : ∃ s, Run (App.step .ios) anyStep {}
      [.initConnection,.initialized,.initConnection,.initialized,.openPremium,
        .purchaseUpdated plan,.verified 0,.verified 0,.premiumCall 0 (.connected true),
        .premiumCall 0 .prefsLoaded,.premiumCall 1 (.connected true),
        .premiumCall 1 .prefsLoaded] s ∧ Quiet s ∧ s.events = [plan] ∧
      times plan (s.premiumStatus.sent.map fun request => request.1.item) = 2 :=
    Run.exists_of_exec (by decide)
  obtain ⟨s,run,quiet,events,twice⟩ := computed
  have once := (claimed .ios (fun _ => .subscription) _ s run quiet).premium plan
    (by simp [events]) (by decide) (by decide)
  rw [twice] at once
  contradiction

end Neuro.PurchaseEffects
