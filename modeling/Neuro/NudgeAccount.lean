import Neuro.InboxEntry
import Neuro.RecentUsers

/-! The nudge button of the inbox rows: the request that spends a nudge and the two
transactions that flag the mirrored documents of the conversation, which go their
ways independently of each other. -/
namespace Neuro.NudgeAccount
open Neuro.Lib ChatScreen InboxEntry
open RecentUsers (Path)

/-- Where the request of a tap stands; it is skipped on a balance of "0". The server
answers a posted one by consuming a nudge or not. -/
inductive Request
  | skipped
  | connecting
  | loadingPrefs
  | posted (userId : String)
  | consumed (userId : String)
  | failed
  deriving DecidableEq, Repr

/-- Where the two transactions of a tap stand: the peer's document comes first. A
failed one ends the tap. -/
inductive Update
  | recentPeerId
  | recent
  | finished
  | failedPeerId
  | failed
  deriving DecidableEq, Repr

structure Tap where
  screen : Nat
  userId : String
  peerId : String
  request : Request
  update : Update := .recentPeerId
  deriving DecidableEq, Repr

/-- The `SentRequestController` of an opened inbox with the id in its only
`sendNudge` object. -/
structure Controller where
  userId : String
  sendNudge : String := ""
  deriving DecidableEq, Repr

structure Inboxes where
  docs : Store Path RecentUser
  screens : List Controller := []
  taps : List Tap := []

inductive Resume
  | connected (value : Bool)
  | prefsLoaded
  | served (taken : Bool)
  deriving DecidableEq, Repr

inductive Action
  | openInbox (userId : String)
  /-- A row and the balance, as they were when the row was built. -/
  | onTap (screen : Nat) (row : MessageUser) (userNudgeCount : String)
  | resume (tap : Nat) (r : Resume)
  | commit (tap : Nat) (succeeds : Bool)
  deriving DecidableEq, Repr

namespace Tap
variable (x : Tap)

def target : Option Path := match x.update with
  | .recentPeerId => some (x.peerId,x.userId)
  | .recent => some (x.userId,x.peerId)
  | .finished | .failedPeerId | .failed => none

def toRequest (request : Request) : Tap := {x with request := request}

def passed : Tap := {x with update := match x.update with
  | .recentPeerId => .recent
  | _ => .finished}

def aborted : Tap := {x with update := match x.update with
  | .recentPeerId => .failedPeerId
  | _ => .failed}

end Tap

namespace Inboxes
variable (s : Inboxes)

def unflagged (docs : Store Path RecentUser) : Inboxes where
  docs p := (docs p).map fun doc => {doc with isNudgeSent := none}

/-- `sendNudge.id` is set and the request started; the transactions start either way. -/
def onTap (screen : Nat) (row : MessageUser) (userNudgeCount : String) (c : Controller) : Inboxes :=
  if row.isNudgeSent then s
  else if userNudgeCount = "0" then
    {s with taps := s.taps ++ [⟨screen,c.userId,row.id,.skipped,.recentPeerId⟩]}
  else {s with
    screens := s.screens.set screen {c with sendNudge := row.id}
    taps := s.taps ++ [⟨screen,c.userId,row.id,.connecting,.recentPeerId⟩]}

def sendNudgeRequest (x : Tap) (r : Resume) : Option Request := match r,x.request with
  | .connected value,.connecting => some (if value then .loadingPrefs else .failed)
  | .prefsLoaded,.loadingPrefs => s.screens[x.screen]?.map fun c => .posted c.sendNudge
  | .served taken,.posted userId => some (if taken then .consumed userId else .failed)
  | _,_ => none

def flag (p : Path) (succeeds : Bool) : Option (Store Path RecentUser) :=
  if succeeds then s.docs.update p RecentUser.merge {isNudgeSent := some true} else none

def commit (i : Nat) (x : Tap) (p : Path) (succeeds : Bool) : Inboxes :=
  match s.flag p succeeds with
  | some docs => {s with docs := docs,taps := s.taps.set i x.passed}
  | none => {s with taps := s.taps.set i x.aborted}

/-- The button is shown on rows with a sender timer. -/
def step : Action → Option Inboxes
  | .openInbox userId => some {s with screens := s.screens ++ [{userId := userId}]}
  | .onTap screen row userNudgeCount =>
    if row.nudgeSender.isSome then s.screens[screen]?.map (s.onTap screen row userNudgeCount)
    else none
  | .resume i r => s.taps[i]?.bind fun x => (s.sendNudgeRequest x r).map fun request =>
    {s with taps := s.taps.set i (x.toRequest request)}
  | .commit i succeeds => s.taps[i]?.bind fun x => x.target.map fun p => s.commit i x p succeeds

end Inboxes

/-! What a tap has done so far. -/

def Tap.settled (x : Tap) : Bool := x.target.isNone && match x.request with
  | .skipped | .consumed _ | .failed => true
  | .connecting | .loadingPrefs | .posted _ => false

def Request.asks : Request → Bool
  | .skipped => false
  | _ => true

def Request.unencoded : Request → Bool
  | .connecting | .loadingPrefs => true
  | _ => false

def Request.target : Request → Option String
  | .posted userId | .consumed userId => some userId
  | .skipped | .connecting | .loadingPrefs | .failed => none

def Tap.wrote (x : Tap) (p : Path) : Bool := match x.update with
  | .recentPeerId | .failedPeerId => false
  | .recent | .failed => (x.peerId,x.userId) = p
  | .finished => (x.peerId,x.userId) = p || (x.userId,x.peerId) = p

def pairs (u v a b : String) : Bool := (u = a && v = b) || (u = b && v = a)

def Tap.between (x : Tap) (a b : String) : Bool := pairs x.userId x.peerId a b

/-- The server has consumed a nudge of one of the two with the other as target. -/
def Tap.nudged (x : Tap) (a b : String) : Bool := match x.request with
  | .consumed userId => pairs x.userId userId a b
  | _ => false

namespace Inboxes
variable (s : Inboxes)

def Quiet : Prop := ∀ x ∈ s.taps, x.settled = true

instance : Decidable s.Quiet := inferInstanceAs (Decidable (∀ _ ∈ _, _))

/-- The taps that took effect on rows of this conversation. -/
def made (a b : String) : Nat := s.taps.countP fun x => x.between a b

def nudges (a b : String) : Nat := s.taps.countP fun x => x.nudged a b

def flagged (p : Path) : Bool := (s.docs p).any fun doc => doc.isNudgeSent.isSome

def window (doc : RecentUser) : Int := daysBetween 0 0 doc.isNudgeSent.isSome

/-- At most one nudge was consumed; when nothing is outstanding, both documents are
flagged and have the long window exactly if one was. -/
def Accounted (a b : String) : Prop :=
  s.nudges a b ≤ 1 ∧ (s.Quiet → (s.flagged (a,b) = true ↔ s.nudges a b = 1) ∧
    s.flagged (a,b) = s.flagged (b,a) ∧
    ∀ doc ∈ s.docs (a,b), window doc = 72 * 3600 ↔ s.nudges a b = 1)

instance (a b : String) : Decidable (s.Accounted a b) := inferInstanceAs (Decidable (_ ∧ _))

/-- The first effective tap on a conversation, and no later one, finds a balance other
than "0"; no other request of that inbox is still to be encoded then. Every request
is served and every transaction finds its document. -/
def Careful (s : Inboxes) : Action → Prop
  | .openInbox _ => True
  | .onTap screen row userNudgeCount => row.isNudgeSent = false → ∀ c ∈ s.screens[screen]?,
    (userNudgeCount ≠ "0" ↔ s.made c.userId row.id = 0) ∧
    (userNudgeCount ≠ "0" → ∀ x ∈ s.taps, x.screen = screen → x.request.unencoded = false)
  | .resume _ r => r ≠ .connected false ∧ r ≠ .served false
  | .commit i succeeds => succeeds = true ∧
    ∀ x ∈ s.taps[i]?, ∀ p ∈ x.target, s.docs p ≠ none

instance : ∀ s a, Decidable (Careful s a)
  | _,.openInbox _ => inferInstanceAs (Decidable True)
  | _,.onTap .. => inferInstanceAs (Decidable (_ → ∀ _ ∈ _, _))
  | _,.resume .. | _,.commit .. => inferInstanceAs (Decidable (_ ∧ _))

inductive Stepped (s : Inboxes) : Action → Inboxes → Prop
  | opened (userId) : Stepped s (.openInbox userId)
      {s with screens := s.screens ++ [{userId := userId}]}
  | ignored (screen row userNudgeCount) : Stepped s (.onTap screen row userNudgeCount) s
  | unpaid (screen row c) (shown : s.screens[screen]? = some c) (fresh : row.isNudgeSent = false) :
      Stepped s (.onTap screen row "0")
        {s with taps := s.taps ++ [⟨screen,c.userId,row.id,.skipped,.recentPeerId⟩]}
  | paid (screen row userNudgeCount c) (shown : s.screens[screen]? = some c)
      (fresh : row.isNudgeSent = false) (balance : userNudgeCount ≠ "0") :
      Stepped s (.onTap screen row userNudgeCount) {s with
        screens := s.screens.set screen {c with sendNudge := row.id}
        taps := s.taps ++ [⟨screen,c.userId,row.id,.connecting,.recentPeerId⟩]}
  | resumed (i r x request) (found : s.taps[i]? = some x)
      (answered : s.sendNudgeRequest x r = some request) :
      Stepped s (.resume i r) {s with taps := s.taps.set i (x.toRequest request)}
  | passed (i x p doc) (found : s.taps[i]? = some x) (pending : x.target = some p)
      (exist : s.docs p = some doc) : Stepped s (.commit i true) {s with
        docs := s.docs.set p (doc.merge {isNudgeSent := some true})
        taps := s.taps.set i x.passed}
  | aborted (i succeeds x p) (found : s.taps[i]? = some x) (pending : x.target = some p)
      (cause : succeeds = true → s.docs p = none) : Stepped s (.commit i succeeds)
        {s with taps := s.taps.set i x.aborted}

variable {s t : Inboxes} {a : Action}

theorem step_cases (stepped : s.step a = some t) : Stepped s a t := by
  cases a with
  | openInbox userId =>
    cases Option.some.inj stepped
    exact .opened userId
  | onTap screen row userNudgeCount =>
    rw [step] at stepped
    split at stepped
    next =>
      obtain ⟨c,shown,rfl⟩ := Option.map_eq_some_iff.mp stepped
      unfold onTap
      split
      · exact .ignored screen row userNudgeCount
      next fresh =>
        split
        next zero =>
          subst zero
          exact .unpaid screen row c shown (by simpa using fresh)
        next balance => exact .paid screen row userNudgeCount c shown (by simpa using fresh) balance
    next => contradiction
  | resume i r =>
    obtain ⟨x,found,answered⟩ := Option.bind_eq_some_iff.mp stepped
    obtain ⟨request,answer,rfl⟩ := Option.map_eq_some_iff.mp answered
    exact .resumed i r x request found answer
  | commit i succeeds =>
    obtain ⟨x,found,committed⟩ := Option.bind_eq_some_iff.mp stepped
    obtain ⟨p,pending,rfl⟩ := Option.map_eq_some_iff.mp committed
    unfold commit flag
    cases succeeds with
    | false => exact .aborted i false x p found pending (by simp)
    | true =>
      cases updated : s.docs.update p RecentUser.merge {isNudgeSent := some true} with
      | none => exact .aborted i true x p found pending (by simpa [Store.update] using updated)
      | some docs =>
        obtain ⟨doc,exist,rfl⟩ := Store.update_eq_some.mp updated
        exact .passed i x p doc found pending exist

end Inboxes

/-! Which documents are flagged, in any run. -/

variable {s t : Inboxes} {x : Tap}

theorem wrote_toRequest (request : Request) (p : Path) :
    (x.toRequest request).wrote p = x.wrote p := rfl

theorem wrote_passed {p : Path} (pending : x.target = some p) (q : Path) :
    x.passed.wrote q = (x.wrote q || decide (p = q)) := by
  cases update : x.update <;> simp_all [Tap.target,Tap.passed,Tap.wrote]

theorem wrote_aborted {p : Path} (pending : x.target = some p) (q : Path) :
    x.aborted.wrote q = x.wrote q := by
  cases update : x.update <;> simp_all [Tap.target,Tap.aborted,Tap.wrote]

/-- The flags are those of the transactions that have committed. -/
def Traced (s : Inboxes) : Prop := ∀ p, s.flagged p = s.taps.any fun x => x.wrote p

theorem traced_step {a : Action} (traced : Traced s) (stepped : s.step a = some t) : Traced t := by
  intro q
  have before := traced q
  cases Inboxes.step_cases stepped with
  | opened | ignored => exact before
  | unpaid | paid =>
    rw [List.any_append]
    exact before.trans (Bool.or_false _).symm
  | resumed i r x request found answered =>
    exact before.trans (Pool.any_set_same (fun x => x.wrote q) found
      (wrote_toRequest request q)).symm
  | passed i x p doc found pending exist =>
    rw [Pool.any_set _ found (wrote_passed pending q),← before]
    by_cases same : q = p
    · subst same
      simp [Inboxes.flagged,RecentUser.merge]
    · simp [Inboxes.flagged,Store.set_of_ne same,Ne.symm same]
  | aborted i succeeds x p found pending cause =>
    exact before.trans (Pool.any_set_same (fun x => x.wrote q) found (wrote_aborted pending q)).symm

/-! The account of a careful run. -/

def asked (s : Inboxes) (a b : String) : Nat :=
  s.taps.countP fun x => x.between a b && x.request.asks

/-- A request is, or is going to be, for the peer of its conversation; nothing has
failed. -/
structure Ready (screens : List Controller) (x : Tap) : Prop where
  own : ∀ userId ∈ x.request.target, userId = x.peerId
  bound : x.request.unencoded = true →
    ∃ c, screens[x.screen]? = some c ∧ c.sendNudge = x.peerId
  alive : x.request ≠ .failed ∧ x.update ≠ .failedPeerId ∧ x.update ≠ .failed

structure Kept (s : Inboxes) : Prop where
  traced : Traced s
  ready : ∀ x ∈ s.taps, Ready s.screens x
  once : ∀ a b, asked s a b = min 1 (s.made a b)

theorem pairs_congr {u v a b : String} (same : pairs u v a b = true) (c d : String) :
    pairs c d a b = pairs c d u v := by
  simp only [pairs,Bool.or_eq_true,Bool.and_eq_true,decide_eq_true_eq] at same
  rcases same with ⟨rfl,rfl⟩ | ⟨rfl,rfl⟩
  · rfl
  · exact Bool.or_comm ..

theorem made_congr {u v a b : String} (same : pairs u v a b = true) : s.made a b = s.made u v := by
  simp only [Inboxes.made,Tap.between,pairs_congr same]

theorem once_append {tap : Tap} {screens : List Controller}
    (once : ∀ a b, asked s a b = min 1 (s.made a b))
    (first : tap.request.asks = true ↔ s.made tap.userId tap.peerId = 0) (a b : String) :
    asked {s with screens := screens,taps := s.taps ++ [tap]} a b =
      min 1 (Inboxes.made {s with screens := screens,taps := s.taps ++ [tap]} a b) := by
  have before := once a b
  simp only [asked,Inboxes.made,List.countP_append,List.countP_singleton] at before ⊢
  cases same : tap.between a b with
  | false => simpa using before
  | true =>
    have equal := made_congr (s := s) same
    rw [← equal,Inboxes.made] at first
    cases asks : tap.request.asks <;> simp_all

theorem once_set {i : Nat} {next : Tap} {docs : Store Path RecentUser}
    (once : ∀ a b, asked s a b = min 1 (s.made a b)) (found : s.taps[i]? = some x)
    (users : next.userId = x.userId ∧ next.peerId = x.peerId)
    (asks : next.request.asks = x.request.asks) (a b : String) :
    asked {s with docs := docs,taps := s.taps.set i next} a b =
      min 1 (Inboxes.made {s with docs := docs,taps := s.taps.set i next} a b) := by
  have between : next.between a b = x.between a b := by
    rw [Tap.between,users.1,users.2,Tap.between]
  rw [asked,Pool.countP_set _ found (by rw [between,asks]),Inboxes.made,
    Pool.countP_set _ found between]
  exact once a b

theorem asks_answered {r : Resume} {request : Request}
    (answered : s.sendNudgeRequest x r = some request) : request.asks = x.request.asks := by
  unfold Inboxes.sendNudgeRequest at answered
  split at answered
  next awaits =>
    rw [awaits,← Option.some.inj answered]
    split <;> rfl
  next awaits =>
    obtain ⟨c,_,rfl⟩ := Option.map_eq_some_iff.mp answered
    rw [awaits]
    rfl
  next awaits =>
    rw [awaits,← Option.some.inj answered]
    split <;> rfl
  next => contradiction

theorem ready_answered {r : Resume} {request : Request} (ready : Ready s.screens x)
    (careful : r ≠ .connected false ∧ r ≠ .served false)
    (answered : s.sendNudgeRequest x r = some request) :
    Ready s.screens (x.toRequest request) := by
  obtain ⟨own,bound,alive⟩ := ready
  unfold Inboxes.sendNudgeRequest at answered
  split at answered
  next value awaits =>
    obtain rfl : value = true := by cases value <;> simp_all
    cases Option.some.inj answered
    exact ⟨by simp [Tap.toRequest,Request.target],fun _ => bound (by rw [awaits]; rfl),
      by simpa [Tap.toRequest] using alive.2⟩
  next awaits =>
    obtain ⟨c,shown,rfl⟩ := Option.map_eq_some_iff.mp answered
    obtain ⟨_,same,target⟩ := bound (by rw [awaits]; rfl)
    cases Option.some.inj (shown.symm.trans same)
    exact ⟨by simp [Tap.toRequest,Request.target,target],by simp [Tap.toRequest,Request.unencoded],
      by simpa [Tap.toRequest] using alive.2⟩
  next taken userId awaits =>
    obtain rfl : taken = true := by cases taken <;> simp_all
    cases Option.some.inj answered
    have target := own userId (by rw [awaits]; rfl)
    exact ⟨by simp [Tap.toRequest,Request.target,target],by simp [Tap.toRequest,Request.unencoded],
      by simpa [Tap.toRequest] using alive.2⟩
  next => contradiction

theorem ready_passed {screens : List Controller} {p : Path} (ready : Ready screens x)
    (pending : x.target = some p) : Ready screens x.passed where
  own := ready.own
  bound := ready.bound
  alive := by
    refine ⟨ready.alive.1,?_⟩
    cases update : x.update <;> simp_all [Tap.target,Tap.passed]

theorem kept_step {a : Action} (kept : Kept s) (careful : s.Careful a)
    (stepped : s.step a = some t) : Kept t := by
  have traced := traced_step kept.traced stepped
  cases Inboxes.step_cases stepped with
  | opened userId =>
    refine ⟨traced,fun x member => ?_,kept.once⟩
    obtain ⟨own,bound,alive⟩ := kept.ready x member
    refine ⟨own,fun pending => ?_,alive⟩
    obtain ⟨c,shown,target⟩ := bound pending
    exact ⟨c,Pool.mem_appended.mpr (.inl shown),target⟩
  | ignored => exact kept
  | unpaid screen row c shown fresh =>
    have ready : Ready s.screens ⟨screen,c.userId,row.id,.skipped,.recentPeerId⟩ :=
      ⟨by simp [Request.target],by simp [Request.unencoded],by simp⟩
    have balance := (careful fresh c shown).1
    refine ⟨traced,Pool.forall_append kept.ready ready,once_append kept.once ?_⟩
    simpa [Request.asks] using balance
  | paid screen row userNudgeCount c shown fresh balance =>
    have quiet := (careful fresh c shown).2 balance
    have own : (s.screens.set screen {c with sendNudge := row.id})[screen]? =
        some {c with sendNudge := row.id} := by
      obtain ⟨bound,_⟩ := List.getElem?_eq_some_iff.mp shown
      simp [bound]
    refine ⟨traced,Pool.forall_append (fun x member => ?_) ?_,once_append kept.once ?_⟩
    · obtain ⟨own,bound,alive⟩ := kept.ready x member
      refine ⟨own,fun pending => ?_,alive⟩
      have other : screen ≠ x.screen := by
        rintro rfl
        simp [quiet x member rfl] at pending
      obtain ⟨d,shown,target⟩ := bound pending
      exact ⟨d,by rwa [List.getElem?_set_ne other],target⟩
    · exact ⟨by simp [Request.target],fun _ => ⟨_,own,rfl⟩,by simp⟩
    · simpa [Request.asks] using (careful fresh c shown).1.mp balance
  | resumed i r x request found answered =>
    have ready := ready_answered (kept.ready x (List.mem_of_getElem? found)) careful answered
    exact ⟨traced,Pool.forall_set kept.ready ready,
      once_set kept.once found ⟨rfl,rfl⟩ (asks_answered answered)⟩
  | passed i x p doc found pending exist =>
    have ready := ready_passed (kept.ready x (List.mem_of_getElem? found)) pending
    exact ⟨traced,Pool.forall_set kept.ready ready,once_set kept.once found ⟨rfl,rfl⟩ rfl⟩
  | aborted i succeeds x p found pending cause =>
    exact absurd (cause careful.1) (careful.2 x found p pending)

theorem kept_unflagged (docs : Store Path RecentUser) : Kept (.unflagged docs) := by
  refine ⟨fun p => ?_,by simp [Inboxes.unflagged],by simp [Inboxes.unflagged,asked,Inboxes.made]⟩
  cases stored : docs p <;> simp [Inboxes.unflagged,Inboxes.flagged,stored]

theorem asks_of_nudged {a b : String} (ready : Ready s.screens x) (nudged : x.nudged a b = true) :
    (x.between a b && x.request.asks) = true := by
  obtain ⟨own,_,_⟩ := ready
  cases request : x.request with
  | consumed userId =>
    obtain rfl := own userId (by rw [request]; rfl)
    simpa [Tap.nudged,Tap.between,Request.asks,request] using nudged
  | skipped | connecting | loadingPrefs | posted | failed => simp [Tap.nudged,request] at nudged

theorem nudged_of_asks {a b : String} (ready : Ready s.screens x) (settled : x.settled = true)
    (asks : (x.between a b && x.request.asks) = true) : x.nudged a b = true := by
  obtain ⟨own,_,alive,_⟩ := ready
  cases request : x.request with
  | consumed userId =>
    obtain rfl := own userId (by rw [request]; rfl)
    simpa [Tap.nudged,Tap.between,Request.asks,request] using asks
  | failed => exact absurd request alive
  | skipped => simp [Request.asks,request] at asks
  | connecting | loadingPrefs | posted => simp [Tap.settled,request] at settled

theorem wrote_of_settled {a b : String} (ready : Ready s.screens x) (settled : x.settled = true) :
    x.wrote (a,b) = x.between a b := by
  obtain ⟨_,_,_,alive⟩ := ready
  cases update : x.update with
  | finished => simp [Tap.wrote,Tap.between,pairs,update,Bool.or_comm,Bool.and_comm]
  | failedPeerId | failed => simp_all
  | recentPeerId | recent => simp [Tap.settled,Tap.target,update] at settled

theorem Kept.nudges_le (kept : Kept s) (a b : String) : s.nudges a b ≤ asked s a b :=
  List.countP_mono_left fun x member => asks_of_nudged (kept.ready x member)

theorem Kept.nudges_of_quiet (kept : Kept s) (quiet : s.Quiet) (a b : String) :
    s.nudges a b = asked s a b :=
  List.countP_congr fun x member => ⟨asks_of_nudged (kept.ready x member),
    nudged_of_asks (kept.ready x member) (quiet x member)⟩

theorem Kept.flagged_of_quiet (kept : Kept s) (quiet : s.Quiet) (a b : String) :
    s.flagged (a,b) = decide (s.made a b ≠ 0) := by
  rw [kept.traced,Bool.eq_iff_iff,decide_eq_true_eq,← Nat.pos_iff_ne_zero,Inboxes.made,
    List.countP_pos_iff,List.any_eq_true]
  apply exists_congr
  intro x
  apply and_congr_right
  intro member
  rw [wrote_of_settled (kept.ready x member) (quiet x member)]

theorem window_iff (doc : RecentUser) :
    Inboxes.window doc = 72 * 3600 ↔ doc.isNudgeSent.isSome = true := by
  cases sent : doc.isNudgeSent <;> simp [Inboxes.window,daysBetween,sent]

theorem Kept.accounted (kept : Kept s) (a b : String) : s.Accounted a b := by
  have once := kept.once a b
  refine ⟨(kept.nudges_le a b).trans (once ▸ Nat.min_le_left ..),fun quiet => ?_⟩
  have nudges := kept.nudges_of_quiet quiet a b
  have flagged := kept.flagged_of_quiet quiet a b
  have spent : s.flagged (a,b) = true ↔ s.nudges a b = 1 := by
    rw [flagged,decide_eq_true_eq]
    omega
  refine ⟨spent,?_,fun doc stored => ?_⟩
  · have mirrored : s.made b a = s.made a b := made_congr (by simp [pairs])
    rw [flagged,kept.flagged_of_quiet quiet b a,mirrored]
  · rw [window_iff,← spent,Inboxes.flagged,Option.mem_def.mp stored,Option.any_some]

theorem commit_last {taps : List Tap} {p : Path} (last : s.taps = taps ++ [x])
    (pending : x.target = some p) (exist : s.docs p ≠ none) :
    ∃ next, s.step (.commit taps.length true) = some next ∧ next.taps = taps ++ [x.passed] ∧
      ∀ q, s.docs q ≠ none → next.docs q ≠ none := by
  obtain ⟨doc,stored⟩ := Option.ne_none_iff_exists'.mp exist
  refine ⟨⟨s.docs.set p (doc.merge {isNudgeSent := some true}),s.screens,taps ++ [x.passed]⟩,
    by simp [Inboxes.step,last,pending,Inboxes.commit,Inboxes.flag,Store.update,stored],rfl,
    fun q there => ?_⟩
  by_cases same : q = p
  · simp [same]
  · simpa only [Store.set_of_ne same] using there

/-- The condition on the balance is needed: without it the first tap on a conversation
flags documents nobody has paid for. -/
theorem unpaid_breach {c : Controller} {screen : Nat} {row : MessageUser} (kept : Kept s)
    (quiet : s.Quiet) (shown : s.screens[screen]? = some c) (timer : row.nudgeSender.isSome = true)
    (fresh : row.isNudgeSent = false) (first : s.made c.userId row.id = 0)
    (exist : s.docs (row.id,c.userId) ≠ none ∧ s.docs (c.userId,row.id) ≠ none) :
    ∃ t, Run Inboxes.step anyStep s [.onTap screen row "0",.commit s.taps.length true,
      .commit s.taps.length true] t ∧ t.Quiet ∧ ¬ t.Accounted c.userId row.id := by
  let tap : Tap := ⟨screen,c.userId,row.id,.skipped,.recentPeerId⟩
  have tapped : s.step (.onTap screen row "0") = some {s with taps := s.taps ++ [tap]} := by
    simp [Inboxes.step,timer,shown,Inboxes.onTap,fresh,tap]
  obtain ⟨u,peer,taps,still⟩ := commit_last (s := {s with taps := s.taps ++ [tap]}) rfl rfl exist.1
  obtain ⟨t,own,ended,_⟩ := commit_last taps rfl (still _ exist.2)
  have settled : t.Quiet := by
    rw [Inboxes.Quiet,ended]
    exact Pool.forall_append quiet rfl
  have flagged : t.flagged (c.userId,row.id) = true := by
    rw [traced_step (traced_step (traced_step kept.traced tapped) peer) own,ended]
    simp [Tap.wrote,Tap.passed,tap]
  have unpaid : t.nudges c.userId row.id = 0 := by
    have before := kept.nudges_le c.userId row.id
    rw [kept.once,first] at before
    rw [Inboxes.nudges,ended,List.countP_append]
    exact Nat.add_eq_zero_iff.mpr ⟨Nat.le_zero.mp before,rfl⟩
  refine ⟨t,.cons trivial tapped (.cons trivial peer (.cons trivial own .nil)),settled,?_⟩
  intro accounted
  have paid := (accounted.2 settled).1.mp flagged
  rw [unpaid] at paid
  contradiction

/-- In a careful run every conversation is flagged for exactly one nudge, spent on its
peer, or not at all. -/
theorem nudges_accounted {docs : Store Path RecentUser} {as : List Action}
    (run : Run Inboxes.step Inboxes.Careful (.unflagged docs) as s) (a b : String) :
    s.Accounted a b :=
  Kept.accounted (run.invariant Kept (kept_unflagged docs) fun _ _ _ => kept_step) a b

def conversation : Store Path RecentUser := fun p =>
  if p = ("1","2") ∨ p = ("2","1") then some {} else none

def row : MessageUser where
  id := "2"
  photoUrl := ""
  nickname := ""
  nudgeSender := some 0

theorem nudges_accounted_spent : ∃ s,
    Run Inboxes.step Inboxes.Careful (.unflagged conversation) [.openInbox "1",.onTap 0 row "3",
      .commit 0 true,.resume 0 (.connected true),.resume 0 .prefsLoaded,.commit 0 true,
      .resume 0 (.served true)] s ∧ s.Quiet ∧ s.nudges "1" "2" = 1 ∧ s.Accounted "1" "2" := by
  obtain ⟨s,run,quiet,spent⟩ : ∃ s,
      Run Inboxes.step Inboxes.Careful (.unflagged conversation) [.openInbox "1",.onTap 0 row "3",
        .commit 0 true,.resume 0 (.connected true),.resume 0 .prefsLoaded,.commit 0 true,
        .resume 0 (.served true)] s ∧ s.Quiet ∧ s.nudges "1" "2" = 1 :=
    Run.exists_of_exec (by decide)
  exact ⟨s,run,quiet,spent,nudges_accounted run "1" "2"⟩

/-- Without any balance the conversation is flagged for no nudge at all. -/
theorem flagged_unpaid : ∃ s,
    Run Inboxes.step anyStep (.unflagged conversation) [.openInbox "1",.onTap 0 row "0",
      .commit 0 true,.commit 0 true] s ∧
      s.Quiet ∧ s.flagged ("1","2") = true ∧ s.nudges "1" "2" = 0 ∧ ¬ s.Accounted "1" "2" :=
  Run.exists_of_exec (by decide)

end Neuro.NudgeAccount
