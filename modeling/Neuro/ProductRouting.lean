import Neuro.PurchaseStream

/-! Which product the effects of a purchase are for: neither subscriber of the
stream looks at the product, so it depends on who listens when the event comes. -/
namespace Neuro.ProductRouting
open Neuro.Lib Payment PurchaseStream RequestCall

def Answers (s : App) (product : String) (item : PurchasedItem) : Prop :=
  item ∈ s.events ∧ item.productId = product

/-- Premium is activated only in response to the premium product and the nudge
request is sent only in response to the nudge product. -/
structure Routed (platform : Platform) (s : App) : Prop where
  pro : s.service.isProUser = true → s.service.granted ≠ []
  activated : ∀ item ∈ s.service.granted, Answers s (premiumProduct platform) item
  premium : ∀ request ∈ s.premiumStatus.sent,
    Answers s (premiumProduct platform) request.1.item
  nudge : ∀ request ∈ s.buyNudge.sent, Answers s (nudgeProduct platform) request.1.item

/-- An event that grants while the service is subscribed is of the premium product,
and one that finds a nudge screen with its loader shown is of the nudge product. -/
def Matching (platform : Platform) (s : App) : PurchaseStream.Action → Prop
  | .purchaseUpdated item =>
    (0 < s.subscriptions → item.grants platform = true →
      item.productId = premiumProduct platform) ∧
    (s.reacting ≠ [] → item.productId = nudgeProduct platform)
  | _ => True

instance : ∀ (platform : Platform) (s : App) (a : PurchaseStream.Action),
    Decidable (Matching platform s a)
  | _,_,.purchaseUpdated _ => inferInstanceAs (Decidable (_ ∧ _))
  | _,_,.initConnection | _,_,.initialized | _,_,.openPremium | _,_,.closePremium _
  | _,_,.openNudge | _,_,.nudgeInitialized _ | _,_,.nudgeConsumed _ | _,_,.productsLoaded ..
  | _,_,.tapBuy _ | _,_,.closeNudge _ | _,_,.purchaseError _ | _,_,.verified _
  | _,_,.premiumCall .. | _,_,.nudgeCall .. => inferInstanceAs (Decidable True)

structure Kept (platform : Platform) (s : App) : Prop where
  sound : Sound s
  premium : ∀ item ∈ s.premiumItems, Answers s (premiumProduct platform) item
  nudge : ∀ item ∈ s.nudgeItems, Answers s (nudgeProduct platform) item

theorem kept_step {platform : Platform} {s t : App} {a : PurchaseStream.Action}
    (kept : Kept platform s) (matching : Matching platform s a)
    (stepped : s.step platform a = some t) : Kept platform t := by
  have events := events_step kept.sound stepped
  have later : ∀ event ∈ s.events, event ∈ t.events := by
    intro event member
    rw [events]
    exact List.mem_append_left _ member
  refine ⟨sound_step kept.sound stepped,fun item member => ?_,fun item member => ?_⟩
  · rcases (items_step kept.sound stepped item).1 member with old | ⟨rfl,subscribed,grants⟩
    · obtain ⟨event,product⟩ := kept.premium item old
      exact ⟨later item event,product⟩
    · exact ⟨by simp [events,PurchaseStream.Action.event],matching.1 subscribed grants⟩
  · rcases (items_step kept.sound stepped item).2 member with old | ⟨rfl,reacts⟩
    · obtain ⟨event,product⟩ := kept.nudge item old
      exact ⟨later item event,product⟩
    · exact ⟨by simp [events,PurchaseStream.Action.event],matching.2 reacts⟩

theorem routed_of_kept {platform : Platform} {s : App} (kept : Kept platform s) :
    Routed platform s := by
  refine ⟨kept.sound.pro,fun item member => ?_,fun request member => ?_,fun request member => ?_⟩
  · exact kept.premium item (by simp [App.premiumItems,member])
  · have asked := List.mem_map_of_mem (f := Cause.item) (kept.sound.premiumPosted request member)
    exact kept.premium _ (List.mem_append_right _ asked)
  · exact kept.nudge _ (List.mem_map_of_mem (kept.sound.nudgePosted request member))

/-- In every run in which every event meets only listeners for its own product,
premium is activated only for the premium product and nudges are requested only
for the nudge product. -/
theorem products_routed {platform : Platform} {s : App} {actions : List PurchaseStream.Action}
    (run : Run (App.step platform) (Matching platform) {} actions s) : Routed platform s := by
  have start : Kept platform {} := by
    refine ⟨⟨?_,?_,?_,?_⟩,?_,?_⟩ <;> simp [App.premiumItems,App.nudgeItems,Outbox.tags]
  exact routed_of_kept (run.invariant (Kept platform) start fun _ _ _ => kept_step)

theorem products_routed_premium : ∃ s, Run (App.step .ios) (Matching .ios) {}
    [.initConnection,.initialized,.openPremium,.purchaseUpdated (bought "com.neuropal.premium" "1"),
      .verified 0,.premiumCall 0 (.connected true),.premiumCall 0 .prefsLoaded] s ∧
    s.premiumStatus.sent.length = 1 ∧ Routed .ios s := by
  have computed : ∃ s, Run (App.step .ios) (Matching .ios) {}
      [.initConnection,.initialized,.openPremium,
        .purchaseUpdated (bought "com.neuropal.premium" "1"),
        .verified 0,.premiumCall 0 (.connected true),.premiumCall 0 .prefsLoaded] s ∧
      s.premiumStatus.sent.length = 1 :=
    Run.exists_of_exec (by decide)
  obtain ⟨s,run,once⟩ := computed
  exact ⟨s,run,once,products_routed run⟩

/-- Five nudges are bought: the service, subscribed since the login, takes the event
for a premium plan. -/
theorem nudge_grants_premium : ¬ ∀ (platform : Platform) (actions : List PurchaseStream.Action)
    (s : App), Run (App.step platform) anyStep {} actions s → Routed platform s := by
  intro claimed
  have computed : ∃ s, Run (App.step .ios) anyStep {}
      [.initConnection,.initialized,.openNudge,.nudgeInitialized 0,.nudgeConsumed 0,
        .productsLoaded 0 true,.tapBuy 0,.purchaseUpdated (bought "com.nudge.five" "1"),
        .verified 0] s ∧ s.service.granted = [bought "com.nudge.five" "1"] :=
    Run.exists_of_exec (by decide)
  obtain ⟨s,run,granted⟩ := computed
  have activated := (claimed .ios _ s run).activated
  have product := (activated (bought "com.nudge.five" "1") (by simp [granted])).2
  exact absurd product (by decide)

end Neuro.ProductRouting
