import Neuro.InboxEntry
import Neuro.RecentUsers
import Neuro.Lib.DateTime

/-! The timers of a conversation as `setList` computes them: the current time is
printed and parsed again with a 12 hour pattern, and a timer below zero deletes both
documents of the conversation. -/
namespace Neuro.ChatExpiry
open Neuro.Lib ChatScreen RecentUsers

inductive Timer
  | receiver
  | sender
  deriving DecidableEq, Repr

def Timer.created : Timer → RecentUser → Option Int
  | .receiver, doc => doc.nudgeReceiver
  | .sender, doc => doc.nudgeSender

def Timer.shown : Timer → MessageUser → Option Int
  | .receiver, data => data.nudgeReceiver
  | .sender, data => data.nudgeSender

def epoch : Int :=
  Stamp.seconds {year := 1970,month := 1,day := 1,hour := 0,minute := 0,second := 0}

/-- In a zone that is `zone` seconds ahead. -/
def fromMillisecondsSinceEpoch (zone milliseconds : Int) : DateTime :=
  .ofSeconds (epoch + zone + milliseconds / 1000)

/-- A local time with the digits of its fraction of a second. -/
structure Now extends Stamp where
  fraction : String

def Now.toString (now : Now) : String := now.text ++ ("." ++ now.fraction)

def daysBetween (start finish : DateTime) (isNudge : Bool) : Int :=
  (if isNudge then 72 else 48) * 3600 - (finish.seconds - start.seconds)

/-- The row `setList` adds, unless it throws, and the documents it has deleted. -/
structure Processed where
  row : Option MessageUser := none
  removed : List Path := []

section SetList
variable (parse : String → Option DateTime) (zone : Int)

/-- One timer of a document: its duration and the deletions. Both ids are read before
the first of them. -/
def nudgeTimer (now : String) (doc : RecentUser) (createAt : Option Int) :
    Option (Option Int × List Path) :=
  match createAt with
  | none => some (none,[])
  | some createAt => do
    let severDateTime ← parse now
    let time := daysBetween (fromMillisecondsSinceEpoch zone createAt) severDateTime
      doc.isNudgeSent.isSome
    if time < 0 then
      let idFrom ← doc.idFrom
      let idTo ← doc.idTo
      return (some time,[(idFrom,idTo),(idTo,idFrom)])
    else return (some time,[])

/-- Both timers, each with its own reading of the clock, and what is read after them. -/
def timed (now : Timer → Now) (doc : RecentUser) (data : MessageUser)
    (rest : MessageUser → Option MessageUser) : Processed :=
  match nudgeTimer parse zone (now .receiver).toString doc doc.nudgeReceiver with
  | none => {}
  | some (nudgeReceiver,removed) =>
    match nudgeTimer parse zone (now .sender).toString doc doc.nudgeSender with
    | none => {removed := removed}
    | some (nudgeSender,more) => {
      row := rest {data with nudgeReceiver := nudgeReceiver,nudgeSender := nudgeSender}
      removed := removed ++ more}

def fields (currentUserId : String) (doc : RecentUser) : Option MessageUser := do
  let idFrom ← doc.idFrom
  let id ← if currentUserId = idFrom then doc.idTo else some idFrom
  let photoUrl ← doc.photoUrl
  let nickname ← doc.nickname
  let message ← doc.content
  let time ← doc.timestamp
  return {
    id := id
    photoUrl := photoUrl
    nickname := nickname
    message := some message
    time := some time
    isNudgeSent := doc.isNudgeSent.isSome}

def withType (doc : RecentUser) (data : MessageUser) : Option MessageUser :=
  doc.type.map fun type => {data with type := some (toString type)}

/-- The closure for a document whose conversation has a read mark. -/
def setListMarked (now : Timer → Now) (currentUserId count : String) (doc : RecentUser) :
    Processed :=
  match (fields currentUserId doc).bind (withType doc) with
  | none => {}
  | some data => timed parse zone now doc data fun data => some {data with count := count}

/-- The closure for a conversation that was never opened; it reads the type last. -/
def setListUnmarked (now : Timer → Now) (currentUserId : String) (doc : RecentUser) :
    Processed :=
  match fields currentUserId doc with
  | none => {}
  | some data => timed parse zone now doc data (withType doc)

end SetList

/-- What is left of 72 or 48 hours, with both instants cut to seconds. -/
def remaining (zone : Int) (doc : RecentUser) (now : Now) (createAt : Int) : Int :=
  (if doc.isNudgeSent.isSome then 72 else 48) * 3600 -
    (now.seconds - (epoch + zone + createAt / 1000))

def pathsOf (doc : RecentUser) : List Path :=
  match doc.idFrom,doc.idTo with
  | some idFrom,some idTo => [(idFrom,idTo),(idTo,idFrom)]
  | _,_ => []

/-- The row shows what is left, and both documents are deleted exactly when a timer
has run out. -/
structure Expires (zone : Int) (doc : RecentUser) (now : Timer → Now) (p : Processed) : Prop where
  shown : ∃ row, p.row = some row ∧ ∀ timer : Timer, timer.shown row =
    (timer.created doc).map (remaining zone doc (now timer))
  removed : ∀ path, path ∈ p.removed ↔ path ∈ pathsOf doc ∧
    ∃ timer : Timer, ∃ createAt ∈ timer.created doc, remaining zone doc (now timer) createAt < 0

structure Expiry (zone : Int) (doc : RecentUser) (setList : (Timer → Now) → Processed)
    (now later : Timer → Now) : Prop where
  shown : Expires zone doc now (setList now)
  shownLater : Expires zone doc later (setList later)
  decreases : ∀ timer : Timer, ∀ before ∈ (setList now).row, ∀ after ∈ (setList later).row,
    ∀ earlier ∈ timer.shown before, ∀ next ∈ timer.shown after, next ≤ earlier

/-- A document as a send writes it. -/
structure Complete (doc : RecentUser) : Prop where
  idFrom : doc.idFrom ≠ none
  idTo : doc.idTo ≠ none
  photoUrl : doc.photoUrl ≠ none
  nickname : doc.nickname ≠ none
  content : doc.content ≠ none
  timestamp : doc.timestamp ≠ none
  type : doc.type ≠ none

theorem complete_mapData (screen : Screen) (message : Message) (now nudgeNow : Int) :
    Complete (mapData screen message now nudgeNow) ∧
      Complete (mapDatatoFrom screen message now nudgeNow) := by
  constructor <;> constructor <;> simp [mapData,mapDatatoFrom]

theorem fields_complete {doc : RecentUser} (complete : Complete doc) (userId : String) :
    ∃ data, fields userId doc = some data := by
  obtain ⟨idFrom,sender⟩ := Option.ne_none_iff_exists'.mp complete.idFrom
  obtain ⟨idTo,receiver⟩ := Option.ne_none_iff_exists'.mp complete.idTo
  obtain ⟨photoUrl,photo⟩ := Option.ne_none_iff_exists'.mp complete.photoUrl
  obtain ⟨nickname,name⟩ := Option.ne_none_iff_exists'.mp complete.nickname
  obtain ⟨content,message⟩ := Option.ne_none_iff_exists'.mp complete.content
  obtain ⟨timestamp,time⟩ := Option.ne_none_iff_exists'.mp complete.timestamp
  by_cases own : userId = idFrom
  · simp [fields,sender,receiver,photo,name,message,time,own]
  · simp [fields,sender,photo,name,message,time,own]

/-- What a closure leaves: each timer lags by as much as its reading of the clock. -/
structure Lagging (zone : Int) (doc : RecentUser) (now : Timer → Now) (p : Processed) : Prop where
  row : ∃ row, p.row = some row ∧ ∀ timer : Timer, timer.shown row =
    (timer.created doc).map fun t => remaining zone doc (now timer) t + (now timer).lag
  removed : ∀ path, path ∈ p.removed ↔ path ∈ pathsOf doc ∧ ∃ timer : Timer,
    ∃ t ∈ timer.created doc, remaining zone doc (now timer) t + (now timer).lag < 0

section SetList
variable {parse : String → Option DateTime} (intl : HalfDay parse) {zone : Int} {doc : RecentUser}
  (complete : Complete doc)
include intl complete

theorem nudgeTimer_eq (now : Now) (createAt : Option Int) :
    nudgeTimer parse zone now.toString doc createAt =
      some (createAt.map fun t => remaining zone doc now t + now.lag,
        if ∃ t ∈ createAt, remaining zone doc now t + now.lag < 0 then pathsOf doc else []) := by
  cases createAt with
  | none => simp [nudgeTimer]
  | some t =>
    obtain ⟨server,parsed,seconds⟩ := intl.seconds now.toStamp (.inr ⟨now.fraction,rfl⟩)
    rw [← Now.toString] at parsed
    obtain ⟨idFrom,sender⟩ := Option.ne_none_iff_exists'.mp complete.idFrom
    obtain ⟨idTo,receiver⟩ := Option.ne_none_iff_exists'.mp complete.idTo
    have time : daysBetween (fromMillisecondsSinceEpoch zone t) server doc.isNudgeSent.isSome =
        remaining zone doc now t + now.lag := by
      rw [daysBetween,fromMillisecondsSinceEpoch,DateTime.seconds_ofSeconds,seconds,remaining]
      omega
    simp only [nudgeTimer,parsed,Option.bind_eq_bind,Option.bind_some,time,sender,receiver,
      pathsOf,Option.mem_some,exists_eq_left',Option.map_some]
    split <;> rfl

theorem timed_lagging {now : Timer → Now} {data : MessageUser}
    {rest : MessageUser → Option MessageUser} (kept : ∀ data, ∃ row, rest data = some row ∧
      ∀ timer : Timer, timer.shown row = timer.shown data) :
    Lagging zone doc now (timed parse zone now doc data rest) := by
  rw [timed,nudgeTimer_eq intl complete,nudgeTimer_eq intl complete]
  dsimp only
  constructor
  · obtain ⟨row,built,same⟩ := kept _
    refine ⟨row,built,fun timer => ?_⟩
    rw [same]
    cases timer <;> rfl
  · intro path
    rw [List.mem_append]
    constructor
    · rintro (receiver | sender)
      · split at receiver
        next negative => exact ⟨receiver,.receiver,negative⟩
        next => simp at receiver
      · split at sender
        next negative => exact ⟨sender,.sender,negative⟩
        next => simp at sender
    · rintro ⟨member,timer,negative⟩
      cases timer with
      | receiver =>
        left
        rw [if_pos (by exact negative)]
        exact member
      | sender =>
        right
        rw [if_pos (by exact negative)]
        exact member

theorem setListMarked_lagging (now : Timer → Now) (userId count : String) :
    Lagging zone doc now (setListMarked parse zone now userId count doc) := by
  obtain ⟨data,found⟩ := fields_complete complete userId
  obtain ⟨type,known⟩ := Option.ne_none_iff_exists'.mp complete.type
  have typed : (fields userId doc).bind (withType doc) =
      some {data with type := some (toString type)} := by simp [found,withType,known]
  rw [setListMarked,typed]
  apply timed_lagging intl complete
  exact fun data => ⟨_,rfl,fun timer => by cases timer <;> rfl⟩

theorem setListUnmarked_lagging (now : Timer → Now) (userId : String) :
    Lagging zone doc now (setListUnmarked parse zone now userId doc) := by
  obtain ⟨data,found⟩ := fields_complete complete userId
  obtain ⟨type,known⟩ := Option.ne_none_iff_exists'.mp complete.type
  rw [setListUnmarked,found]
  apply timed_lagging intl complete
  intro data
  rw [withType,known]
  exact ⟨_,rfl,fun timer => by cases timer <;> rfl⟩

end SetList

/-- The time left that the rows of `FirebaseManager` are modelled with. -/
theorem timeLeft_eq {zone milliseconds : Int} {now : Now}
    (clock : epoch + zone + milliseconds / 1000 = now.seconds) (doc : RecentUser) (createAt : Int) :
    InboxEntry.timeLeft zone milliseconds doc createAt =
      remaining zone doc now createAt + now.lag := by
  have start : epoch = 719468 * 86400 := by decide
  have hour := now.inHour
  have minute := now.inMinute
  have second := now.inSecond
  have fields : milliseconds / 1000 + zone = (now.dateTime.dayNumber - 719468) * 86400 +
      now.hour * 3600 + now.minute * 60 + now.second := by
    simp only [Stamp.seconds,DateTime.seconds,start] at clock
    simp only [Stamp.dateTime] at clock ⊢
    omega
  have hours : (milliseconds / 1000 + zone) / 3600 % 24 = now.hour := by omega
  simp only [InboxEntry.timeLeft,InboxEntry.daysBetween,InboxEntry.severDateTime,remaining,hours,
    ← clock,Stamp.lag]
  by_cases noon : now.hour = 12
  · simp only [noon,if_true]
    omega
  · have other : (now.hour : Int) ≠ 12 := by omega
    simp only [noon,other,if_false]
    omega

section Expires
variable {zone : Int} {doc : RecentUser} {now later : Timer → Now} {p : Processed}

theorem expires_iff (lagging : Lagging zone doc now p) : Expires zone doc now p ↔
    ∀ timer : Timer, timer.created doc ≠ none → (now timer).hour ≠ 12 := by
  obtain ⟨row,built,late⟩ := lagging.row
  constructor
  · intro expires timer present
    obtain ⟨other,again,exact⟩ := expires.shown
    obtain rfl : row = other := Option.some.inj (built.symm.trans again)
    obtain ⟨t,created⟩ := Option.ne_none_iff_exists'.mp present
    have same := (late timer).symm.trans (exact timer)
    rw [created] at same
    have equal : remaining zone doc (now timer) t + (now timer).lag =
        remaining zone doc (now timer) t := Option.some.inj same
    apply Stamp.lag_eq_zero.mp
    omega
  · intro clock
    have exact (timer : Timer) {t : Int} (created : t ∈ timer.created doc) :
        (now timer).lag = 0 := Stamp.lag_eq_zero.mpr (clock timer (Option.ne_none_iff_exists'.mpr
          ⟨t,created⟩))
    constructor
    · refine ⟨row,built,fun timer => ?_⟩
      rw [late]
      cases created : timer.created doc with
      | none => rfl
      | some t => simp only [Option.map_some,exact timer created,Int.add_zero]
    · intro path
      rw [lagging.removed]
      apply and_congr_right
      intro _
      constructor
      · rintro ⟨timer,t,created,negative⟩
        exact ⟨timer,t,created,by rwa [exact timer created,Int.add_zero] at negative⟩
      · rintro ⟨timer,t,created,negative⟩
        exact ⟨timer,t,created,by rwa [exact timer created,Int.add_zero]⟩

theorem expiry_iff {setList : (Timer → Now) → Processed}
    (lagging : ∀ now, Lagging zone doc now (setList now))
    (grows : ∀ timer, (now timer).seconds ≤ (later timer).seconds) :
    Expiry zone doc setList now later ↔ ∀ timer : Timer, timer.created doc ≠ none →
      (now timer).hour ≠ 12 ∧ (later timer).hour ≠ 12 := by
  constructor
  · intro expiry timer present
    exact ⟨(expires_iff (lagging now)).mp expiry.shown timer present,
      (expires_iff (lagging later)).mp expiry.shownLater timer present⟩
  · intro clock
    have first := (expires_iff (lagging now)).mpr fun timer present => (clock timer present).1
    have second := (expires_iff (lagging later)).mpr fun timer present => (clock timer present).2
    refine ⟨first,second,fun timer before shown after shownLater => ?_⟩
    obtain ⟨row,built,exact⟩ := first.shown
    obtain ⟨next,builtLater,exactLater⟩ := second.shown
    obtain rfl : row = before := Option.some.inj (built.symm.trans shown)
    obtain rfl : next = after := Option.some.inj (builtLater.symm.trans shownLater)
    intro earlier left last right
    rw [exact,Option.mem_def,Option.map_eq_some_iff] at left
    rw [exactLater,Option.mem_def,Option.map_eq_some_iff] at right
    obtain ⟨t,created,rfl⟩ := left
    obtain ⟨again,same,rfl⟩ := right
    obtain rfl : t = again := Option.some.inj (created.symm.trans same)
    have passed := grows timer
    simp only [remaining]
    omega

end Expires

/-- Both closures of `setList` time a conversation exactly, and never show more time
later on, if and only if the clock does not read 12 in its hour field. -/
theorem chat_expires_iff {parse : String → Option DateTime} (intl : HalfDay parse) (zone : Int)
    {doc : RecentUser} (complete : Complete doc) (userId count : String) {now later : Timer → Now}
    (grows : ∀ timer, (now timer).seconds ≤ (later timer).seconds) :
    (Expiry zone doc (fun time => setListMarked parse zone time userId count doc) now later ∧
      Expiry zone doc (fun time => setListUnmarked parse zone time userId doc) now later) ↔
    ∀ timer : Timer, timer.created doc ≠ none →
      (now timer).hour ≠ 12 ∧ (later timer).hour ≠ 12 := by
  have marked (time : Timer → Now) : Lagging zone doc time
      (setListMarked parse zone time userId count doc) :=
    setListMarked_lagging intl complete time userId count
  have unmarked (time : Timer → Now) : Lagging zone doc time
      (setListUnmarked parse zone time userId doc) :=
    setListUnmarked_lagging intl complete time userId
  rw [expiry_iff marked grows,expiry_iff unmarked grows,and_self_iff]

/-- The first message of a match, sent on 3 May 2021 at ten o'clock. -/
def nudged : RecentUser :=
  mapData (readLocal String.length ⟨"7","Anna","a.png"⟩ (.ofMatch "12" "b.png" "Ben")) ⟨"hi",0⟩
    1620036000000 1620036000000

def oclock (hour : Fin 24) : Now where
  year := 2021
  month := 5
  day := 3
  hour := hour
  minute := 0
  second := 0
  fraction := "000000"

theorem chat_expires_iff_eleven :
    (Expiry 0 nudged (fun time => setListMarked readHalfDay 0 time "12" "" nudged)
        (fun _ => oclock 11) (fun _ => oclock 13) ∧
      Expiry 0 nudged (fun time => setListUnmarked readHalfDay 0 time "12" nudged)
        (fun _ => oclock 11) (fun _ => oclock 13)) ↔
    ∀ timer : Timer, timer.created nudged ≠ none →
      (oclock 11).hour ≠ 12 ∧ (oclock 13).hour ≠ 12 :=
  chat_expires_iff readHalfDay_halfDay 0 (complete_mapData _ _ _ _).1 "12" "" fun _ => by decide

/-- At noon the time left jumps up by twelve hours. -/
theorem noon_extends_conversation : ¬ ∀ (parse : String → Option DateTime) (zone : Int)
    (doc : RecentUser) (userId count : String) (now later : Timer → Now), HalfDay parse →
    Complete doc → (∀ timer : Timer, ∀ t ∈ timer.created doc,
      epoch + zone + t / 1000 ≤ (now timer).seconds) →
    (∀ timer, (now timer).seconds ≤ (later timer).seconds) →
    Expiry zone doc (fun time => setListMarked parse zone time userId count doc) now later ∧
      Expiry zone doc (fun time => setListUnmarked parse zone time userId doc) now later := by
  intro claimed
  have complete : Complete nudged := (complete_mapData _ _ _ _).1
  have expiry := (claimed readHalfDay 0 nudged "12" "" (fun _ => oclock 11)
    (fun _ => oclock 12) readHalfDay_halfDay complete
    (by intro timer t created
        cases timer with
        | receiver => contradiction
        | sender => cases Option.some.inj created; decide)
    (fun _ => by decide)).1
  have noon := (expires_iff (setListMarked_lagging readHalfDay_halfDay complete _ "12" "")).mp
    expiry.shownLater .sender (by decide)
  exact noon rfl

end Neuro.ChatExpiry
