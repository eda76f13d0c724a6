import Neuro.GroupDecision
import Neuro.MatchTimer
import Neuro.MirroredInbox
import Neuro.RequestCall

/-! The end of a match: the send that finds `isMatches` still set when it is through clears it
and asks the server to remove the match. -/
namespace Neuro.FirstMessage
open Neuro.Lib ChatScreen RecentUsers RequestCall MirroredInbox
open GroupDecision (NeuroRequest Body)

/-- What is sent to remove a match, and the screen that asks for it. -/
structure Removal where
  screen : Nat
  sendData : NeuroRequest
  deriving DecidableEq, Repr

def Removal.toMap (removal : Removal) : Body := removal.sendData.toMap

/-- `fromMatch` is a history of the screens opened with `isMatches` set; no step reads it. -/
structure Chats where
  inbox : Inbox := .empty
  removals : Outbox Removal Body := {}
  fromMatch : List Nat := []

inductive Action
  | chat (action : RecentUsers.Action)
  | removal (call : Nat) (resume : Resume)

/-- The call of `removeMatches` a step of the chat makes: only the continuation of the second
write makes one, when `isMatches` is still set. -/
def removeMatches (inbox : Inbox) : RecentUsers.Action → Option Removal
  | .resume i .. => inbox.sends[i]?.bind fun x =>
    if x.stage = .committed .toMe then
      (inbox.screens[x.screen]?.filter Screen.matching).map fun screen =>
        ⟨x.screen,⟨screen.peerId,"1"⟩⟩
    else none
  | .openChat _ | .onSendMessage .. => none

namespace Chats
variable (s : Chats)

def matched : RecentUsers.Action → List Nat
  | .openChat screen => if screen.matching then [s.inbox.screens.length] else []
  | .onSendMessage .. | .resume .. => []

def step : Action → Option Chats
  | .chat action => (s.inbox.step action).map fun inbox => {
    inbox := inbox
    removals := (removeMatches s.inbox action).elim s.removals s.removals.start
    fromMatch := s.fromMatch ++ s.matched action}
  | .removal i resume => (s.removals.resume Removal.toMap i resume).map fun removals =>
    {s with removals := removals}

end Chats

def own (s : Inbox) (k : Nat) : List Send := s.sends.filter fun x => x.screen = k

def issued (s : Chats) (k : Nat) : List Body :=
  (s.removals.sent.filter fun request => request.1.screen = k).map Prod.snd

structure Stamped (x : Send) : Prop where
  other : x.mapData.nudgeSender ≠ none
  me : ∀ map ∈ x.mapDatatoFrom, map.nudgeReceiver ≠ none

structure Unstamped (x : Send) : Prop where
  other : x.mapData.nudgeSender = none
  me : ∀ map ∈ x.mapDatatoFrom, map.nudgeReceiver = none

/-- No send of the screen is in progress, and every removal has posted its request. -/
def Through (s : Chats) (k : Nat) : Prop :=
  (∀ x ∈ own s.inbox k, x.stage.ended = true) ∧ s.removals.Quiet

/-- The first message sent from the screen carries both timers and no further one carries any;
one request at most removes the match with its peer, and one does when all is through. -/
structure FirstOnly (s : Chats) (k : Nat) : Prop where
  silent : own s.inbox k = [] → issued s k = []
  timers : ∀ first ∈ (own s.inbox k).head?, Stamped first ∧
    ∀ x ∈ (own s.inbox k).tail, Unstamped x
  once : ∀ first ∈ (own s.inbox k).head?, issued s k <+: [⟨first.peer,"1"⟩]
  through : Through s k → ∀ first ∈ (own s.inbox k).head?, issued s k = [⟨first.peer,"1"⟩]

/-- A message leaves a screen that is still matching only as its first one, and the
connectivity checks of the removals succeed. -/
def Alone (s : Chats) : Action → Prop
  | .chat (.onSendMessage index message ..) => blank message.content = false →
    ∀ screen ∈ s.inbox.screens[index]?, screen.matching = true → own s.inbox index = []
  | .removal _ (.connected value) => value = true
  | .chat (.openChat _) | .chat (.resume ..) | .removal _ .prefsLoaded | .removal _ .responded =>
    True

instance : ∀ s a, Decidable (Alone s a)
  | _, .chat (.onSendMessage ..) => inferInstanceAs (Decidable (_ → ∀ _ ∈ _, _ → _ = []))
  | _, .removal _ (.connected _) => inferInstanceAs (Decidable (_ = _))
  | _, .chat (.openChat _) | _, .chat (.resume ..) | _, .removal _ .prefsLoaded
  | _, .removal _ .responded => inferInstanceAs (Decidable True)

instance (x : Send) : Decidable (Stamped x) :=
  decidable_of_iff (x.mapData.nudgeSender ≠ none ∧ ∀ map ∈ x.mapDatatoFrom,
    map.nudgeReceiver ≠ none) ⟨fun ⟨other,me⟩ => ⟨other,me⟩,fun ⟨other,me⟩ => ⟨other,me⟩⟩

instance (x : Send) : Decidable (Unstamped x) :=
  decidable_of_iff (x.mapData.nudgeSender = none ∧ ∀ map ∈ x.mapDatatoFrom,
    map.nudgeReceiver = none) ⟨fun ⟨other,me⟩ => ⟨other,me⟩,fun ⟨other,me⟩ => ⟨other,me⟩⟩

instance (s : Chats) (k : Nat) : Decidable (Through s k) := inferInstanceAs (Decidable (_ ∧ _))

def asked (s : Chats) (k : Nat) : List Removal := s.removals.tags.filter fun tag => tag.screen = k

/-- How far a screen opened from a match is, with its sends and its removals. -/
inductive Progress (k : Nat) (screen : Screen) : List Send → List Removal → Prop
  | silent (matching : screen.matching = true) : Progress k screen [] []
  | sending (first) (matching : screen.matching = true) (stamped : Stamped first)
      (unfinished : first.stage ≠ .finished) : Progress k screen [first] []
  | matched (first rest) (matching : screen.matching = false) (stamped : Stamped first)
      (finished : first.stage = .finished) (plain : ∀ x ∈ rest, Unstamped x) :
      Progress k screen (first :: rest) [⟨k,⟨first.peer,"1"⟩⟩]

structure Kept (s : Chats) : Prop where
  sound : Sound s.inbox
  balanced : s.removals.Balanced
  encoded : ∀ request ∈ s.removals.sent, request.2 = request.1.toMap
  beyond : ∀ removal ∈ s.removals.tags, removal.screen < s.inbox.screens.length
  opened : ∀ k ∈ s.fromMatch, ∃ screen ∈ s.inbox.screens[k]?,
    Progress k screen (own s.inbox k) (asked s k)

section Advance
variable {s t : Inbox} {i : Nat} {x y : Send} {now nudgeNow : Int} {screen : Screen}

theorem stamped_moved (advanced : Advanced s i x now nudgeNow y t) (stamped : Stamped x)
    (shown : s.screens[x.screen]? = some screen) (matching : screen.matching = true) :
    Stamped y := by
  cases advanced with
  | second _ _ found =>
    obtain rfl := Option.some.inj (found.symm.trans shown)
    exact ⟨stamped.other,by simp [Send.second,mapDatatoFrom,matching]⟩
  | missing | present | failed | finished => exact ⟨stamped.other,stamped.me⟩
  | set | update => exact ⟨stamped.other,stamped.me⟩

theorem unstamped_moved (advanced : Advanced s i x now nudgeNow y t) (plain : Unstamped x)
    (shown : s.screens[x.screen]? = some screen) (matching : screen.matching = false) :
    Unstamped y := by
  cases advanced with
  | second _ _ found =>
    obtain rfl := Option.some.inj (found.symm.trans shown)
    exact ⟨plain.other,by simp [Send.second,mapDatatoFrom,matching]⟩
  | missing | present | failed | finished => exact ⟨plain.other,plain.me⟩
  | set | update => exact ⟨plain.other,plain.me⟩

/-- Only the continuation of the second write looks at the screen again. -/
theorem advanced_stage (advanced : Advanced s i x now nudgeNow y t)
    (shown : s.screens[x.screen]? = some screen) (found : s.sends[i]? = some x) :
    y.stage ≠ .finished ∧ t.screens = s.screens ∧
        removeMatches s (.resume i now nudgeNow) = none ∨
      y.stage = .finished ∧ t.screens = s.screens.set x.screen screen.matched ∧
        removeMatches s (.resume i now nudgeNow) =
          if screen.matching then some ⟨x.screen,⟨screen.peerId,"1"⟩⟩ else none := by
  cases advanced with
  | missing _ awaited | present _ awaited | failed _ awaited | set _ awaited | update _ _ awaited =>
    exact .inl ⟨by simp [Send.toStage],rfl,by simp [removeMatches,found,awaited]⟩
  | second _ awaited =>
    refine .inl ⟨?_,rfl,by simp [removeMatches,found,awaited]⟩
    simp only [Send.second,entry]
    split <;> simp
  | finished _ awaited again =>
    obtain rfl := Option.some.inj (again.symm.trans shown)
    refine .inr ⟨rfl,rfl,?_⟩
    simp only [removeMatches,found,Option.bind_some,awaited,if_true,again,Option.filter]
    split <;> rfl

theorem advanced_unfinished (advanced : Advanced s i x now nudgeNow y t) :
    x.stage ≠ .finished := by
  cases advanced <;> simp [*]

end Advance

theorem own_append (s : Inbox) (k : Nat) (x : Send) :
    own {s with sends := s.sends ++ [x]} k = own s k ++ if x.screen = k then [x] else [] := by
  simp only [own,List.filter_append,List.filter_cons,List.filter_nil,decide_eq_true_eq]

theorem progress_started {s : Chats} {k : Nat} {screen : Screen} {message : Message}
    {now nudgeNow : Int} (progress : Progress k screen (own s.inbox k) (asked s k))
    (alone : screen.matching = true → own s.inbox k = []) :
    Progress k screen (own s.inbox k ++ [.started k screen message now nudgeNow]) (asked s k) := by
  revert alone progress
  generalize own s.inbox k = sends
  generalize asked s k = removals
  intro progress alone
  cases progress with
  | silent matching =>
    refine .sending _ matching ⟨by simp [Send.started,mapData,matching],by simp [Send.started]⟩ ?_
    simp only [Send.started,entry]
    split <;> simp
  | sending first matching => simp at alone; simp [matching] at alone
  | matched first rest matching stamped finished plain =>
    refine .matched first _ matching stamped finished (Pool.forall_append plain ?_)
    exact ⟨by simp [Send.started,mapData,matching],by simp [Send.started]⟩

theorem progress_own {s t : Inbox} {removals : List Removal} {i : Nat}
    {x y : Send} {now nudgeNow : Int} {screen : Screen} {first last : List Send}
    (progress : Progress x.screen screen (first ++ x :: last) removals)
    (shown : s.screens[x.screen]? = some screen) (peer : screen.peerId = x.peer)
    (found : s.sends[i]? = some x) (advanced : Advanced s i x now nudgeNow y t) :
    ∃ next ∈ t.screens[x.screen]?, Progress x.screen next (first ++ y :: last)
      (removals ++ (removeMatches s (.resume i now nudgeNow)).toList) := by
  obtain ⟨bound,_⟩ := List.getElem?_eq_some_iff.mp shown
  have moved := (advanced_moved advanced).1
  have unfinished := advanced_unfinished advanced
  have stages := advanced_stage advanced shown found
  generalize listed : first ++ x :: last = all at progress
  cases progress with
  | silent => simp at listed
  | sending only matching stamped =>
    obtain ⟨rfl,rfl,rfl⟩ : first = [] ∧ x = only ∧ last = [] := by
      cases first with
      | nil => simpa using listed
      | cons => simp at listed
    have still := stamped_moved advanced stamped shown matching
    rcases stages with ⟨going,screens,none⟩ | ⟨ended,screens,some⟩
    · rw [none,screens]
      exact ⟨screen,shown,.sending y matching still going⟩
    · rw [some,screens,if_pos matching,peer,← moved.peer]
      exact ⟨screen.matched,by simp [bound],.matched y [] (by simp) still ended (by simp)⟩
  | matched opener rest matching stamped finished plain =>
    cases first with
    | nil =>
      obtain ⟨rfl,rfl⟩ := List.cons_eq_cons.mp listed
      exact absurd finished unfinished
    | cons other between =>
      obtain ⟨rfl,rfl⟩ := List.cons_eq_cons.mp listed
      have still : ∀ z ∈ between ++ y :: last, Unstamped z :=
        Pool.forall_replace plain (unstamped_moved advanced (plain x (by simp)) shown matching)
      rcases stages with ⟨_,screens,none⟩ | ⟨_,screens,some⟩
      · rw [none,screens]
        exact ⟨screen,shown,.matched other _ matching stamped finished still⟩
      · rw [some,screens,if_neg (by simp [matching])]
        exact ⟨screen.matched,by simp [bound],
          .matched other _ (by simp) stamped finished still⟩

theorem progress_advanced {s : Chats} {t : Inbox} {i k : Nat} {x y : Send} {now nudgeNow : Int}
    {screen : Screen} (attached : s.inbox.Attached) (shown : s.inbox.screens[k]? = some screen)
    (progress : Progress k screen (own s.inbox k) (asked s k)) (found : s.inbox.sends[i]? = some x)
    (advanced : Advanced s.inbox i x now nudgeNow y t) :
    ∃ next ∈ t.screens[k]?, Progress k next (own t k) (asked s k ++
      (removeMatches s.inbox (.resume i now nudgeNow)).toList.filter fun tag => tag.screen = k) := by
  obtain ⟨moved,sends⟩ := advanced_moved advanced
  obtain ⟨mine,here,_,peer⟩ := attached x (List.mem_of_getElem? found)
  have stages := advanced_stage advanced here found
  by_cases same : x.screen = k
  · subst same
    obtain rfl := Option.some.inj (here.symm.trans shown)
    obtain ⟨first,last,before,after⟩ := Pool.filter_set (fun z => decide (z.screen = x.screen))
      found (by simp) (decide_eq_true moved.screen)
    have all : (removeMatches s.inbox (.resume i now nudgeNow)).toList.filter
        (fun tag => tag.screen = x.screen) =
          (removeMatches s.inbox (.resume i now nudgeNow)).toList := by
      rcases stages with ⟨_,_,none⟩ | ⟨_,_,some⟩
      · simp [none]
      · rw [some]
        split <;> simp
    rw [own,before] at progress
    rw [own,sends,after,all]
    exact progress_own progress shown peer found advanced
  · have sent : own t k = own s.inbox k := by
      rw [own,sends]
      refine Pool.filter_set_other _ found (by simpa using same) ?_
      simpa [moved.screen] using same
    have rest : (removeMatches s.inbox (.resume i now nudgeNow)).toList.filter
        (fun tag => tag.screen = k) = [] := by
      rcases stages with ⟨_,_,none⟩ | ⟨_,_,some⟩
      · simp [none]
      · rw [some]
        split <;> simp [same]
    have still : t.screens[k]? = some screen := by
      rcases stages with ⟨_,screens,_⟩ | ⟨_,screens,_⟩
      · rw [screens,shown]
      · rw [screens,List.getElem?_set_ne same,shown]
    rw [sent,rest,List.append_nil]
    exact ⟨screen,still,progress⟩

section Chat
variable {s t : Chats} {action : RecentUsers.Action}

theorem tags_called (o : Outbox Removal Body) (removal : Option Removal) :
    (removal.elim o o.start).tags = o.tags ++ removal.toList := by
  cases removal with
  | none => simp
  | some removal => simp [Outbox.tags,Outbox.start]

theorem balanced_called {o : Outbox Removal Body} (balanced : o.Balanced)
    (removal : Option Removal) : (removal.elim o o.start).Balanced := by
  cases removal with
  | none => exact balanced
  | some removal => exact Outbox.balanced_start balanced removal

theorem sent_called (o : Outbox Removal Body) (removal : Option Removal) :
    (removal.elim o o.start).sent = o.sent := by
  cases removal <;> rfl

theorem screens_length {s t : Inbox} (stepped : s.step action = some t) :
    s.screens.length ≤ t.screens.length := by
  rcases step_cases stepped with ⟨screen,_,rfl⟩ | ⟨_,_,_,_,_,_,_,⟨_,rfl⟩ | ⟨_,rfl⟩⟩ |
    ⟨i,x,_,_,y,_,_,advanced⟩
  · simp
  · rfl
  · rfl
  · cases advanced <;> simp [Inbox.put]

theorem removal_screen {s : Inbox} {removal : Removal}
    (called : removeMatches s action = some removal) : removal.screen < s.screens.length := by
  cases action with
  | openChat | onSendMessage => simp [removeMatches] at called
  | resume i now nudgeNow =>
    obtain ⟨x,found,called⟩ := Option.bind_eq_some_iff.mp called
    split at called
    · obtain ⟨screen,shown,rfl⟩ := Option.map_eq_some_iff.mp called
      obtain ⟨shown,_⟩ := Option.filter_eq_some_iff.mp shown
      exact (List.getElem?_eq_some_iff.mp shown).1
    · contradiction

end Chat

theorem progress_chat {s : Chats} {t : Inbox} {action : RecentUsers.Action} {k : Nat}
    {screen : Screen} (attached : s.inbox.Attached) (alone : Alone s (.chat action))
    (shown : s.inbox.screens[k]? = some screen)
    (progress : Progress k screen (own s.inbox k) (asked s k))
    (stepped : s.inbox.step action = some t) : ∃ next ∈ t.screens[k]?,
      Progress k next (own t k) (asked s k ++
        (removeMatches s.inbox action).toList.filter fun tag => tag.screen = k) := by
  rcases step_cases stepped with ⟨opened,rfl,rfl⟩ | ⟨index,message,_,_,sender,rfl,found,sent⟩ |
    ⟨i,x,now,nudgeNow,y,rfl,found,advanced⟩
  · refine ⟨screen,Pool.mem_appended.mpr (.inl shown),?_⟩
    simp only [removeMatches,Option.toList_none,List.filter_nil,List.append_nil]
    exact progress
  · simp only [removeMatches,Option.toList_none,List.filter_nil,List.append_nil]
    rcases sent with ⟨_,rfl⟩ | ⟨filled,rfl⟩
    · exact ⟨screen,shown,progress⟩
    · refine ⟨screen,shown,?_⟩
      rw [own_append]
      split
      next same =>
        obtain rfl : index = k := same
        obtain rfl := Option.some.inj (found.symm.trans shown)
        exact progress_started progress (alone filled sender shown)
      next => simpa using progress
  · exact progress_advanced attached shown progress found advanced

theorem kept_chat {s t : Chats} {action : RecentUsers.Action} (kept : Kept s)
    (alone : Alone s (.chat action)) (stepped : s.step (.chat action) = some t) : Kept t := by
  obtain ⟨inbox,taken,rfl⟩ := Option.map_eq_some_iff.mp stepped
  have tags := tags_called s.removals (removeMatches s.inbox action)
  have longer := screens_length taken
  constructor
  · exact sound_step kept.sound taken
  · exact balanced_called kept.balanced _
  · simp only [sent_called]
    exact kept.encoded
  · simp only [tags]
    intro removal member
    rcases List.mem_append.mp member with old | new
    · exact (kept.beyond removal old).trans_le longer
    · exact (removal_screen (Option.mem_toList.mp new)).trans_le longer
  · intro k member
    simp only [asked,tags,List.filter_append]
    rcases List.mem_append.mp member with old | new
    · obtain ⟨screen,shown,progress⟩ := kept.opened k old
      exact progress_chat kept.sound.attached alone shown progress taken
    · cases action with
      | onSendMessage | resume => simp [Chats.matched] at new
      | openChat screen =>
        simp only [Chats.matched] at new
        split at new
        next matching =>
          obtain rfl := List.mem_singleton.mp new
          cases Option.some.inj taken
          have silent : own s.inbox s.inbox.screens.length = [] := by
            refine List.filter_eq_nil_iff.mpr fun x member => ?_
            obtain ⟨_,shown,_⟩ := kept.sound.attached x member
            simpa using (List.getElem?_eq_some_iff.mp shown).1.ne
          have unasked : asked s s.inbox.screens.length = [] := by
            refine List.filter_eq_nil_iff.mpr fun removal member => ?_
            simpa using (kept.beyond removal member).ne
          refine ⟨screen,by simp,?_⟩
          simp only [removeMatches,Option.toList_none,List.filter_nil,List.append_nil]
          rw [asked] at unasked
          rw [unasked]
          exact silent ▸ .silent matching
        next => simp at new

theorem kept_removal {s t : Chats} {i : Nat} {resume : Resume} (kept : Kept s)
    (online : resume ≠ .connected false) (stepped : s.step (.removal i resume) = some t) :
    Kept t := by
  obtain ⟨removals,taken,rfl⟩ := Option.map_eq_some_iff.mp stepped
  have tags := Outbox.tags_resume taken
  refine ⟨kept.sound,Outbox.balanced_resume kept.balanced online taken,?_,?_,?_⟩
  · exact Outbox.encoded_resume kept.encoded taken
  · simpa only [tags] using kept.beyond
  · simpa only [asked,tags] using kept.opened

theorem kept_step {s t : Chats} {a : Action} (kept : Kept s) (alone : Alone s a)
    (stepped : s.step a = some t) : Kept t := by
  cases a with
  | chat action => exact kept_chat kept alone stepped
  | removal i resume =>
    refine kept_removal kept ?_ stepped
    rintro rfl
    exact Bool.false_ne_true alone

theorem kept_start : Kept {} where
  sound := sound_empty
  balanced := rfl
  encoded := by simp
  beyond := by simp [Outbox.tags]
  opened := by simp

theorem issued_eq {s : Chats} (kept : Kept s) (k : Nat) : issued s k =
    ((s.removals.sent.map Prod.fst).filter fun tag => tag.screen = k).map Removal.toMap := by
  rw [issued,List.filter_map,List.map_map]
  refine List.map_congr_left fun request member => ?_
  exact kept.encoded request (List.mem_filter.mp member).1

theorem issued_le {s : Chats} (kept : Kept s) (k : Nat) :
    (↑(issued s k) : Multiset Body) ≤ ↑((asked s k).map Removal.toMap) := by
  have below := Outbox.sent_le kept.balanced
  rw [issued_eq kept,asked,← Multiset.map_coe,← Multiset.map_coe,← Multiset.filter_coe,
    ← Multiset.filter_coe]
  exact Multiset.map_le_map (Multiset.filter_le_filter _ below)

theorem issued_quiet {s : Chats} (kept : Kept s) (quiet : s.removals.Quiet) (k : Nat) :
    (↑(issued s k) : Multiset Body) = ↑((asked s k).map Removal.toMap) := by
  have all := Outbox.sent_of_quiet kept.balanced quiet
  rw [issued_eq kept,asked,← Multiset.map_coe,← Multiset.map_coe,← Multiset.filter_coe,
    ← Multiset.filter_coe,all]

theorem finished_of_ended {s : Chats} (kept : Kept s) {k : Nat} {x : Send}
    (member : x ∈ own s.inbox k) (ended : x.stage.ended = true) : x.stage = .finished := by
  have alive := (kept.sound.ready x (List.mem_filter.mp member).1).alive
  cases stage : x.stage with
  | finished => rfl
  | failed part => exact absurd stage (alive part)
  | getting | setting | updating | committed => simp [stage,Stage.ended] at ended

theorem firstOnly_of_kept {s : Chats} (kept : Kept s) {k : Nat} (member : k ∈ s.fromMatch) :
    FirstOnly s k := by
  obtain ⟨screen,_,progress⟩ := kept.opened k member
  have below := issued_le kept k
  have quiet := issued_quiet kept (k := k)
  generalize sends : own s.inbox k = all at progress
  generalize asked s k = removals at below quiet progress
  cases progress with
  | silent =>
    have none : issued s k = [] := (Multiset.coe_eq_zero _).mp (Multiset.le_zero.mp below)
    exact ⟨fun _ => none,by simp [sends],by simp [sends],by simp [sends]⟩
  | sending first matching stamped unfinished =>
    have none : issued s k = [] := (Multiset.coe_eq_zero _).mp (Multiset.le_zero.mp below)
    refine ⟨fun _ => none,?_,?_,fun through => ?_⟩
    · simpa [sends] using stamped
    · simp [none]
    · have own : first ∈ own s.inbox k := by simp [sends]
      exact absurd (finished_of_ended kept own (through.1 first own)) unfinished
  | matched first rest matching stamped finished plain =>
    refine ⟨by simp [sends],?_,?_,fun through => ?_⟩
    · simpa [sends] using ⟨stamped,plain⟩
    · rcases Multiset.le_singleton.mp below with none | once
      · simp [(Multiset.coe_eq_zero _).mp none]
      · simp [sends,Multiset.coe_eq_singleton.mp once,Removal.toMap,GroupDecision.NeuroRequest.toMap]
    · have once := Multiset.coe_eq_singleton.mp (quiet through.2)
      simp [sends,once,Removal.toMap,GroupDecision.NeuroRequest.toMap]

def sent : List Action :=
  [.chat (.openChat MatchTimer.annaMatch),.chat (.onSendMessage 0 ⟨"hi",0⟩ 5 5),
    .chat (.resume 0 6 6),.chat (.resume 0 6 6),.chat (.resume 0 6 6),.chat (.resume 0 6 6),
    .chat (.resume 0 6 6),.chat (.resume 0 6 6),.chat (.onSendMessage 0 ⟨"how are you",0⟩ 8 8),
    .removal 0 (.connected true),.removal 0 .prefsLoaded]

end Neuro.FirstMessage
