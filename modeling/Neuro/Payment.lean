import Mathlib.Data.Multiset.AddSub
import Neuro.Lib.Pool
import Neuro.Lib.Run

/-! The purchase handlers of the singleton `PaymentService` and what they make of
the states the store reports for a transaction. -/
namespace Neuro.Payment
open Neuro.Lib

inductive Platform
  | android
  | ios
  deriving DecidableEq, Repr

inductive TransactionState
  | purchasing | purchased | failed | restored | deferred
  deriving DecidableEq, Repr

inductive PurchaseState
  | pending | purchased | unspecified
  deriving DecidableEq, Repr

structure PurchasedItem where
  productId : String
  transactionId : String
  transactionReceipt : Option String := none
  purchaseToken : Option String := none
  transactionStateIOS : Option TransactionState := none
  purchaseStateAndroid : Option PurchaseState := none
  isAcknowledgedAndroid : Option Bool := none
  deriving DecidableEq, Repr

structure Verification where
  item : PurchasedItem
  isValid : Bool
  deriving DecidableEq, Repr

/-- The service and a history of its effects: the items finished, those for which
the pro listeners were called, and the texts the error listeners received. -/
structure PaymentService where
  premiumtoken : String := ""
  subdevice : String := ""
  isProUser : Bool := false
  verifying : List Verification := []
  finished : List PurchasedItem := []
  granted : List PurchasedItem := []
  errors : List String := []
  deriving DecidableEq, Repr

namespace PaymentService
variable (s : PaymentService)

def callErrorListeners (error : String) : PaymentService :=
  {s with errors := s.errors ++ [error]}

def finishTransaction (item : PurchasedItem) : PaymentService :=
  {s with finished := s.finished ++ [item]}

def grant (item : PurchasedItem) : PaymentService :=
  {s with isProUser := true, granted := s.granted ++ [item]}

/-- The null check on the token throws where there is none. -/
def verifyPurchase (platform : Platform) (item : PurchasedItem) :
    Option (PaymentService × Bool) :=
  match platform with
  | .android => item.purchaseToken.map fun token =>
    ({s with premiumtoken := token, subdevice := "android"},true)
  | .ios => item.transactionReceipt.map fun receipt =>
    ({s with premiumtoken := receipt, subdevice := "ios"},true)

/-- Up to the await. A failed null check is no `Exception`, so nothing catches it
and no error listener is called. -/
def verifyAndFinishTransaction (platform : Platform) (item : PurchasedItem) : PaymentService :=
  match s.verifyPurchase platform item with
  | some (t,isValid) => {t with verifying := t.verifying ++ [⟨item,isValid⟩]}
  | none => s

def verified (i : Nat) : Option PaymentService :=
  s.verifying[i]?.map fun v =>
    let t := {s with verifying := s.verifying.eraseIdx i}
    if v.isValid then (t.finishTransaction v.item).grant v.item
    else t.callErrorListeners "Varification failed"

def handlePurchaseUpdateIOS (item : PurchasedItem) : PaymentService :=
  match item.transactionStateIOS with
  | some .deferred => s
  | some .failed => (s.callErrorListeners "Transaction Failed").finishTransaction item
  | some .purchased => s.verifyAndFinishTransaction .ios item
  | some .purchasing => s
  | some .restored => s.finishTransaction item
  | none => s

def handlePurchaseUpdateAndroid (item : PurchasedItem) : PaymentService :=
  match item.purchaseStateAndroid with
  | some .purchased =>
    if item.isAcknowledgedAndroid = some true then s.verifyAndFinishTransaction .android item
    else s
  | some .pending | some .unspecified | none => s.callErrorListeners "Something went wrong"

def handlePurchaseUpdate (platform : Platform) (item : PurchasedItem) : PaymentService :=
  match platform with
  | .android => s.handlePurchaseUpdateAndroid item
  | .ios => s.handlePurchaseUpdateIOS item

end PaymentService

namespace PurchasedItem
variable (platform : Platform) (item : PurchasedItem)

def verifiable : Bool := match platform with
  | .android => item.purchaseToken.isSome
  | .ios => item.transactionReceipt.isSome

def purchased : Bool := match platform with
  | .android => item.purchaseStateAndroid = some .purchased
  | .ios => item.transactionStateIOS = some .purchased

/-- Android acts on a purchase only when it is acknowledged already. -/
def acted : Bool := match platform with
  | .android => item.isAcknowledgedAndroid = some true
  | .ios => true

def restored : Bool := match platform with
  | .android => false
  | .ios => item.transactionStateIOS = some .restored

def failed : Bool := match platform with
  | .android => false
  | .ios => item.transactionStateIOS = some .failed

/-- `deferred` and `purchasing` on iOS, `pending` on Android. -/
def waiting : Bool := match platform with
  | .android => item.purchaseStateAndroid = some .pending
  | .ios => item.transactionStateIOS = some .deferred || item.transactionStateIOS = some .purchasing

/-- The reports that lead to a verification. -/
def grants : Bool := item.purchased platform && item.acted platform && item.verifiable platform

end PurchasedItem

inductive Action
  | purchaseUpdated (item : PurchasedItem)
  | verified (handler : Nat)
  deriving DecidableEq, Repr

namespace PaymentService

def step (platform : Platform) (s : PaymentService) : Action → Option PaymentService
  | .purchaseUpdated item => some (s.handlePurchaseUpdate platform item)
  | .verified handler => s.verified handler

end PaymentService

def reports (actions : List Action) : List PurchasedItem := actions.filterMap fun
  | .purchaseUpdated item => some item
  | .verified _ => none

theorem verifyAndFinishTransaction_cases (platform : Platform) (s : PaymentService)
    (item : PurchasedItem) :
    (item.verifiable platform = true ∧
      ∃ token device, s.verifyAndFinishTransaction platform item = {s with
        premiumtoken := token
        subdevice := device
        verifying := s.verifying ++ [⟨item,true⟩]}) ∨
    item.verifiable platform = false ∧ s.verifyAndFinishTransaction platform item = s := by
  unfold PaymentService.verifyAndFinishTransaction PaymentService.verifyPurchase
  cases platform with
  | android =>
    cases found : item.purchaseToken with
    | none => exact .inr ⟨by simp [PurchasedItem.verifiable,found],rfl⟩
    | some token => exact .inl ⟨by simp [PurchasedItem.verifiable,found],token,"android",rfl⟩
  | ios =>
    cases found : item.transactionReceipt with
    | none => exact .inr ⟨by simp [PurchasedItem.verifiable,found],rfl⟩
    | some receipt => exact .inl ⟨by simp [PurchasedItem.verifiable,found],receipt,"ios",rfl⟩

def PurchasedItem.finishes (platform : Platform) (item : PurchasedItem) : Bool :=
  item.failed platform || item.restored platform

theorem handle_acted {platform : Platform} (s : PaymentService) {item : PurchasedItem}
    (bought : item.purchased platform = true) (acted : item.acted platform = true) :
    s.handlePurchaseUpdate platform item = s.verifyAndFinishTransaction platform item ∧
      item.finishes platform = false := by
  cases platform with
  | android =>
    simp only [PurchasedItem.purchased,PurchasedItem.acted,decide_eq_true_eq] at bought acted
    simp only [PaymentService.handlePurchaseUpdate,PaymentService.handlePurchaseUpdateAndroid,
      bought,acted,if_true]
    exact ⟨trivial,rfl⟩
  | ios =>
    simp only [PurchasedItem.purchased,decide_eq_true_eq] at bought
    simp only [PaymentService.handlePurchaseUpdate,PaymentService.handlePurchaseUpdateIOS,bought,
      PurchasedItem.finishes,PurchasedItem.failed,PurchasedItem.restored]
    exact ⟨trivial,by decide⟩

theorem handle_other {platform : Platform} (s : PaymentService) {item : PurchasedItem}
    (other : (item.purchased platform && item.acted platform) = false) :
    ∃ errors, s.handlePurchaseUpdate platform item = {s with
      errors := errors
      finished := s.finished ++ if item.finishes platform then [item] else []} := by
  cases platform with
  | android =>
    rcases reported : item.purchaseStateAndroid with _ | (_ | _ | _)
    case some.purchased =>
      have unacknowledged : ¬ item.isAcknowledgedAndroid = some true := by
        simpa [PurchasedItem.purchased,PurchasedItem.acted,reported] using other
      exact ⟨s.errors,by simp [PaymentService.handlePurchaseUpdate,
        PaymentService.handlePurchaseUpdateAndroid,reported,unacknowledged,
        PurchasedItem.finishes,PurchasedItem.failed,PurchasedItem.restored]⟩
    all_goals
      exact ⟨s.errors ++ ["Something went wrong"],by simp [PaymentService.handlePurchaseUpdate,
        PaymentService.handlePurchaseUpdateAndroid,PaymentService.callErrorListeners,reported,
        PurchasedItem.finishes,PurchasedItem.failed,PurchasedItem.restored]⟩
  | ios =>
    rcases reported : item.transactionStateIOS with _ | (_ | _ | _ | _ | _)
    case some.purchased => simp [PurchasedItem.purchased,PurchasedItem.acted,reported] at other
    case some.failed =>
      exact ⟨s.errors ++ ["Transaction Failed"],by simp [PaymentService.handlePurchaseUpdate,
        PaymentService.handlePurchaseUpdateIOS,PaymentService.callErrorListeners,
        PaymentService.finishTransaction,reported,PurchasedItem.finishes,PurchasedItem.failed]⟩
    all_goals
      exact ⟨s.errors,by simp [PaymentService.handlePurchaseUpdate,
        PaymentService.handlePurchaseUpdateIOS,PaymentService.finishTransaction,reported,
        PurchasedItem.finishes,PurchasedItem.failed,PurchasedItem.restored]⟩

/-- What a report does at once, whatever else is going on: it starts a
verification, or it finishes the transaction, or neither. -/
theorem handle_cases (platform : Platform) (s : PaymentService) (item : PurchasedItem) :
    (item.grants platform = true ∧ item.finishes platform = false ∧
      ∃ token device, s.handlePurchaseUpdate platform item = {s with
        premiumtoken := token
        subdevice := device
        verifying := s.verifying ++ [⟨item,true⟩]}) ∨
    item.grants platform = false ∧ ∃ errors, s.handlePurchaseUpdate platform item = {s with
      errors := errors
      finished := s.finished ++ if item.finishes platform then [item] else []} := by
  cases acts : item.purchased platform && item.acted platform with
  | false => exact .inr ⟨by simp [PurchasedItem.grants,acts],handle_other s acts⟩
  | true =>
    obtain ⟨bought,acted⟩ := Bool.and_eq_true_iff.mp acts
    obtain ⟨handled,other⟩ := handle_acted s bought acted
    rw [handled,other]
    rcases verifyAndFinishTransaction_cases platform s item with
      ⟨valid,started⟩ | ⟨invalid,same⟩
    · exact .inl ⟨by simp [PurchasedItem.grants,acts,valid],rfl,started⟩
    · exact .inr ⟨by simp [PurchasedItem.grants,acts,invalid],s.errors,by simp [same]⟩

/-- After these reports: each one that grants has done so or awaits verification,
and what is finished was granted, failed or restored. -/
structure Handled (platform : Platform) (seen : List PurchasedItem) (s : PaymentService) : Prop where
  valid : ∀ v ∈ s.verifying, v.isValid = true
  granting : (↑s.granted : Multiset PurchasedItem) + ↑(s.verifying.map Verification.item) =
    ↑(seen.filter fun item => item.grants platform)
  finishing : (↑s.finished : Multiset PurchasedItem) =
    ↑s.granted + ↑(seen.filter fun item => item.finishes platform)
  pro : s.granted ≠ [] → s.isProUser = true

theorem handled_report {platform : Platform} {seen : List PurchasedItem} {s : PaymentService}
    (handled : Handled platform seen s) (item : PurchasedItem) :
    Handled platform (seen ++ [item]) (s.handlePurchaseUpdate platform item) := by
  rcases handle_cases platform s item with
    ⟨grants,other,token,device,next⟩ | ⟨other,errors,next⟩
  · rw [next]
    refine ⟨?_,?_,?_,handled.pro⟩
    · exact Pool.forall_append handled.valid rfl
    · simp only [List.filter_append,List.filter_cons,List.filter_nil,grants,if_true,
        List.map_append,List.map_cons,List.map_nil,← Multiset.coe_add,← handled.granting,
        Multiset.add_assoc]
    · simpa only [List.filter_append,List.filter_cons,List.filter_nil,other,Bool.false_eq_true,
        if_false,List.append_nil] using handled.finishing
  · rw [next]
    refine ⟨handled.valid,?_,?_,handled.pro⟩
    · simpa only [List.filter_append,List.filter_cons,List.filter_nil,other,Bool.false_eq_true,
        if_false,List.append_nil] using handled.granting
    · simp only [List.filter_append,List.filter_cons,List.filter_nil,← Multiset.coe_add,
        handled.finishing,Multiset.add_assoc]

theorem handled_verified {platform : Platform} {seen : List PurchasedItem} {s t : PaymentService}
    (handled : Handled platform seen s) {i : Nat} (stepped : s.verified i = some t) :
    Handled platform seen t := by
  obtain ⟨v,found,rfl⟩ := Option.map_eq_some_iff.mp stepped
  obtain ⟨bound,rfl⟩ := List.getElem?_eq_some_iff.mp found
  have valid := handled.valid s.verifying[i] (List.getElem_mem bound)
  have taken : s.verifying.Perm (s.verifying[i] :: s.verifying.eraseIdx i) :=
    (List.getElem_cons_eraseIdx_perm bound).symm
  simp only [valid,if_true]
  refine ⟨?_,?_,?_,fun _ => rfl⟩
  · intro v member
    exact handled.valid v (List.mem_of_mem_eraseIdx member)
  · have same := Multiset.coe_eq_coe.mpr (taken.map Verification.item)
    rw [← handled.granting,same,List.map_cons,← Multiset.cons_coe,← Multiset.singleton_add,
      ← Multiset.add_assoc]
    rfl
  · simp only [PaymentService.grant,PaymentService.finishTransaction,← Multiset.coe_add,
      handled.finishing,Multiset.add_assoc]
    rw [Multiset.add_comm ([s.verifying[i].item] : Multiset PurchasedItem)]

theorem handled_run {platform : Platform} {s : PaymentService} {actions : List Action}
    (run : Run (PaymentService.step platform) anyStep {} actions s) :
    Handled platform (reports actions) s := by
  have start : Handled platform (reports []) {} :=
    ⟨by simp,by simp [reports],by simp [reports],by simp⟩
  apply run.traced (fun as s => Handled platform (reports as) s) start
  intro as s a t handled _ stepped
  cases a with
  | purchaseUpdated item =>
    cases Option.some.inj stepped
    simpa [reports] using handled_report handled item
  | verified i =>
    simpa [reports] using handled_verified handled stepped

def Granted (s : PaymentService) (transactionId : String) : Prop :=
  ∃ item ∈ s.granted, item.transactionId = transactionId

def Finished (s : PaymentService) (transactionId : String) : Prop :=
  ∃ item ∈ s.finished, item.transactionId = transactionId

def about (transactionId : String) (seen : List PurchasedItem) : List PurchasedItem :=
  seen.filter fun item => item.transactionId = transactionId

/-- What the states reported for a transaction lead to. -/
structure Lawful (platform : Platform) (seen : List PurchasedItem) (s : PaymentService) : Prop where
  purchased : ∀ item ∈ seen, item.purchased platform = true → item.acted platform = true →
    s.isProUser = true ∧ Granted s item.transactionId ∧ Finished s item.transactionId
  restored : ∀ item ∈ seen, item.restored platform = true → Finished s item.transactionId
  /-- Nothing else grants, a restored purchase included. -/
  ungranted : ∀ id, (∀ item ∈ about id seen, item.purchased platform = false) → ¬ Granted s id
  unfinished : ∀ item ∈ s.finished, item.waiting platform = false

theorem waiting_open {platform : Platform} {item : PurchasedItem}
    (waiting : item.waiting platform = true) :
    item.grants platform = false ∧ item.finishes platform = false := by
  cases platform with
  | android =>
    simp only [PurchasedItem.waiting,decide_eq_true_eq] at waiting
    simp [PurchasedItem.grants,PurchasedItem.purchased,PurchasedItem.finishes,
      PurchasedItem.failed,PurchasedItem.restored,waiting]
  | ios =>
    simp only [PurchasedItem.waiting,Bool.or_eq_true,decide_eq_true_eq] at waiting
    rcases waiting with state | state <;>
      simp [PurchasedItem.grants,PurchasedItem.purchased,PurchasedItem.finishes,
        PurchasedItem.failed,PurchasedItem.restored,state]

/-- The verification call succeeds: each report that is verified carries its receipt or token.
Others, as of a purchase that has only begun, need none. -/
def Verifiable (platform : Platform) (seen : List PurchasedItem) : Prop :=
  ∀ item ∈ seen, item.purchased platform = true → item.acted platform = true →
    item.verifiable platform = true

instance (platform : Platform) (seen : List PurchasedItem) : Decidable (Verifiable platform seen) :=
  inferInstanceAs (Decidable (∀ _ ∈ _, _ → _ → _))

/-- Whatever states the store reports for its transactions, on both platforms: once
every handler is through and no verification was impossible, the outcome is lawful. -/
theorem purchases_lawful {platform : Platform} {s : PaymentService} {actions : List Action}
    (run : Run (PaymentService.step platform) anyStep {} actions s) (quiet : s.verifying = [])
    (verifiable : Verifiable platform (reports actions)) :
    Lawful platform (reports actions) s := by
  obtain ⟨_,granting,finishing,pro⟩ := handled_run run
  rw [quiet,List.map_nil,Multiset.coe_nil,Multiset.add_zero] at granting
  have granted (item : PurchasedItem) :
      item ∈ s.granted ↔ item ∈ reports actions ∧ item.grants platform = true := by
    rw [← Multiset.mem_coe,granting,Multiset.mem_coe,List.mem_filter]
  have finished (item : PurchasedItem) : item ∈ s.finished ↔
      item ∈ s.granted ∨ item ∈ reports actions ∧ item.finishes platform = true := by
    rw [← Multiset.mem_coe,finishing,Multiset.mem_add,Multiset.mem_coe,Multiset.mem_coe,
      List.mem_filter]
  constructor
  · intro item member bought acted
    have grants : item ∈ s.granted := (granted item).mpr
      ⟨member,by simp [PurchasedItem.grants,bought,acted,verifiable item member bought acted]⟩
    exact ⟨pro (List.ne_nil_of_mem grants),⟨item,grants,rfl⟩,
      ⟨item,(finished item).mpr (.inl grants),rfl⟩⟩
  · intro item member restored
    have finishes : item.finishes platform = true := by simp [PurchasedItem.finishes,restored]
    exact ⟨item,(finished item).mpr (.inr ⟨member,finishes⟩),rfl⟩
  · rintro id none ⟨item,member,rfl⟩
    obtain ⟨reported,grants⟩ := (granted item).mp member
    have bought := none item (List.mem_filter.mpr ⟨reported,by simp⟩)
    simp [PurchasedItem.grants,bought] at grants
  · intro item member
    cases waiting : item.waiting platform with
    | false => rfl
    | true =>
      obtain ⟨ungranted,unfinished⟩ := waiting_open waiting
      rcases (finished item).mp member with grants | ⟨_,finishes⟩
      · rw [((granted item).mp grants).2] at ungranted
        contradiction
      · rw [finishes] at unfinished
        contradiction

/-- Only a purchase that is through has a receipt. -/
def planReports : List PurchasedItem :=
  let item : PurchasedItem := ⟨"com.neuropal.premium","1000",none,none,none,none,none⟩
  [{item with transactionStateIOS := some .purchasing},
    {item with transactionStateIOS := some .deferred},
    {item with transactionStateIOS := some .purchased,transactionReceipt := some "receipt"},
    {item with transactionStateIOS := some .restored}]

theorem purchases_lawful_plan : ∃ s, Run (PaymentService.step .ios) anyStep {}
    (planReports.map Action.purchaseUpdated ++ [.verified 0]) s ∧
      s.granted.length = 1 ∧ Lawful .ios planReports s := by
  have computed : ∃ s, Run (PaymentService.step .ios) anyStep {}
      (planReports.map Action.purchaseUpdated ++ [.verified 0]) s ∧
        s.granted.length = 1 ∧ s.verifying = [] :=
    Run.exists_of_exec (by decide)
  obtain ⟨s,run,once,quiet⟩ := computed
  exact ⟨s,run,once,purchases_lawful run quiet (by decide)⟩

/-- A restored purchase on iOS is finished and never granted. -/
theorem restored_ungranted : ¬ ∀ (platform : Platform) (actions : List Action)
    (s : PaymentService), Run (PaymentService.step platform) anyStep {} actions s →
    s.verifying = [] → Verifiable platform (reports actions) →
    ∀ item ∈ reports actions, (item.purchased platform || item.restored platform) = true →
      s.isProUser = true ∧ Granted s item.transactionId ∧ Finished s item.transactionId := by
  intro claimed
  let item : PurchasedItem :=
    ⟨"com.neuropal.premium","1000",some "receipt",none,some .restored,none,none⟩
  have computed : ∃ s, Run (PaymentService.step .ios) anyStep {} [.purchaseUpdated item] s ∧
      s.verifying = [] ∧ s.isProUser = false :=
    Run.exists_of_exec (by decide)
  obtain ⟨s,run,quiet,poor⟩ := computed
  have rich := (claimed .ios _ s run quiet (by decide) item (by decide) (by decide)).1
  exact Bool.false_ne_true (poor.symm.trans rich)

end Neuro.Payment
