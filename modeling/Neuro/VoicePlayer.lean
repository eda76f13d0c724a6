import Neuro.Lib.Pool
import Neuro.Lib.Run

/-! The voice messages of a chat: every player pauses the ones the two slots of
`FirebaseManager` hold before it starts, and takes its own slot when it has started. -/
namespace Neuro.VoicePlayer
open Neuro.Lib

/-- `PlayerWidget` shows the messages sent, `PlayerWidgetLeft` the ones received. -/
inductive Side
  | right
  | left
  deriving DecidableEq, Repr

def Side.other : Side → Side
  | .right => .left
  | .left => .right

inductive PlayerState
  | stopped
  | playing
  | paused
  deriving DecidableEq, Repr

structure Player where
  side : Side
  playerState : PlayerState := .stopped
  disposed : Bool := false
  deriving DecidableEq, Repr

/-- A call into the audio player that has not completed. -/
inductive Call
  | play (player : Nat)
  | pause (player : Nat)
  deriving DecidableEq, Repr

def Call.plays : Call → Bool
  | .play _ => true
  | .pause _ => false

/-- The result 1, another result, or an exception. -/
inductive Outcome
  | success
  | refused
  | thrown
  deriving DecidableEq, Repr

/-- `played` is a history: the player that was tapped last to be played. -/
structure Voice where
  players : List Player := []
  playerWidgetRight : Option Nat := none
  playerWidgetLeft : Option Nat := none
  calls : List Call := []
  played : Option Nat := none
  deriving DecidableEq, Repr

inductive Action
  | initState (side : Side)
  /-- The button, which plays or pauses. -/
  | onPressed (player : Nat)
  /-- Completion or an error of the audio player. -/
  | stopped (player : Nat)
  | dispose (player : Nat)
  | resume (call : Nat) (outcome : Outcome)
  deriving DecidableEq, Repr

namespace Voice
variable (s : Voice)

def slot : Side → Option Nat
  | .right => s.playerWidgetRight
  | .left => s.playerWidgetLeft

def setSlot (side : Side) (player : Option Nat) : Voice :=
  match side with
  | .right => {s with playerWidgetRight := player}
  | .left => {s with playerWidgetLeft := player}

def await (call : Call) : Voice := {s with calls := s.calls ++ [call]}

/-- `setState`, which throws once the state is disposed. -/
def setPlayerState (i : Nat) (playerState : PlayerState) : Option Voice :=
  s.players[i]?.bind fun player =>
    if player.disposed then none
    else some {s with players := s.players.set i {player with playerState := playerState}}

def pauseSlot (side : Side) : Voice :=
  match s.slot side with
  | some player => (s.await (.pause player)).setSlot side none
  | none => s

/-- `_play` up to its await: first the slot of its own side, then the other. -/
def play (i : Nat) (side : Side) : Voice :=
  (({s with played := some i}.pauseSlot side).pauseSlot side.other).await (.play i)

def register (i : Nat) : Voice :=
  match s.players[i]? with
  | some player => s.setSlot player.side (some i)
  | none => s

def continued (outcome : Outcome) : Call → Voice
  | .play i => match outcome with
    | .success => match s.setPlayerState i .playing with
      | some t => t.register i
      | none => s
    | .refused => s.register i
    | .thrown => s
  | .pause i => if outcome = .success then (s.setPlayerState i .paused).getD s else s

def resumed (call : Nat) : Voice := {s with calls := s.calls.eraseIdx call}

def step (s : Voice) : Action → Option Voice
  | .initState side => some {s with players := s.players ++ [{side := side}]}
  | .onPressed i => s.players[i]?.bind fun player =>
    if player.disposed then none
    else if player.playerState = .playing then some (s.await (.pause i))
    else some (s.play i player.side)
  | .stopped i => s.setPlayerState i .stopped
  | .dispose i => s.players[i]?.bind fun player =>
    if player.disposed then none
    else some {s with players := s.players.set i {player with disposed := true}}
  | .resume call outcome => s.calls[call]?.map fun c => (s.resumed call).continued outcome c

end Voice

def Live (s : Voice) (i : Nat) : Prop := ∃ player ∈ s.players[i]?, player.disposed = false

def Playing (s : Voice) (i : Nat) : Prop :=
  ∃ player ∈ s.players[i]?, player.disposed = false ∧ player.playerState = .playing

def Held (s : Voice) (i : Nat) : Prop := ∃ side, s.slot side = some i

/-- Playing, and no pause is under way. -/
def Loose (s : Voice) (i : Nat) : Prop := Playing s i ∧ .pause i ∉ s.calls

/-- At most one player is playing, it is held in a slot, and no slot holds a disposed one. -/
structure Single (s : Voice) : Prop where
  one : s.calls = [] → ∀ i j, Playing s i → Playing s j → i = j
  held : s.calls = [] → ∀ i, Playing s i → Held s i
  live : ∀ i, Held s i → Live s i

instance (s : Voice) (i : Nat) : Decidable (Live s i) := inferInstanceAs (Decidable (∃ _ ∈ _, _))

instance (s : Voice) (i : Nat) : Decidable (Playing s i) :=
  inferInstanceAs (Decidable (∃ _ ∈ _, _ ∧ _))

instance (s : Voice) (i : Nat) : Decidable (Held s i) :=
  decidable_of_iff (s.slot .right = some i ∨ s.slot .left = some i) ⟨by
    rintro (held | held)
    · exact ⟨.right,held⟩
    · exact ⟨.left,held⟩,by
    rintro ⟨side,held⟩
    cases side with
    | right => exact .inl held
    | left => exact .inr held⟩

instance (s : Voice) (i : Nat) : Decidable (Loose s i) := inferInstanceAs (Decidable (_ ∧ _ ∉ _))

/-- No message is played before the one tapped last has started, and that one is not disposed;
every pause succeeds. -/
def OneAtATime (s : Voice) : Action → Prop
  | .onPressed i => ∀ player ∈ s.players[i]?, player.playerState ≠ .playing →
    ∀ c ∈ s.calls, c.plays = false
  | .dispose i => s.played ≠ some i
  | .resume call outcome => ∀ c ∈ s.calls[call]?, c.plays = false → outcome = .success
  | .initState _ | .stopped _ => True

instance (s : Voice) : ∀ a, Decidable (OneAtATime s a)
  | .onPressed _ => inferInstanceAs (Decidable (∀ _ ∈ _, _ → ∀ _ ∈ _, _))
  | .dispose _ => inferInstanceAs (Decidable (_ ≠ _))
  | .resume .. => inferInstanceAs (Decidable (∀ _ ∈ _, _ → _))
  | .initState _ | .stopped _ => inferInstanceAs (Decidable True)

/-- What the completion of a call asks of the state it finds: a player that starts leaves
none playing behind in a slot, a player that is put into a slot is not disposed, and a
pause that fails concerns the only one playing, and that from a slot. -/
def CallCalm (s : Voice) : Outcome → Call → Prop
  | .success, .play i => Live s i → ∀ side, ∀ j ∈ s.slot side, j ≠ i → ¬ Loose s j
  | .refused, .play i => ∃ player ∈ s.players[i]?, player.disposed = false ∧
    ∀ j ∈ s.slot player.side, j ≠ i → ¬ Loose s j
  | .refused, .pause i | .thrown, .pause i =>
    Loose s i → Held s i ∧ ∀ j < s.players.length, Loose s j → j = i
  | .thrown, .play _ | .success, .pause _ => True

/-- No player is disposed while a slot holds it, and every call completes in a calm state. -/
def Calm (s : Voice) : Action → Prop
  | .dispose i => ¬ Held s i
  | .resume call outcome => ∀ c ∈ s.calls[call]?, CallCalm (s.resumed call) outcome c
  | .initState _ | .onPressed _ | .stopped _ => True

/-- The property of every state, calls under way or not. -/
structure Sound (s : Voice) : Prop where
  one : ∀ i j, Loose s i → Loose s j → i = j
  held : ∀ i, Loose s i → Held s i
  live : ∀ i, Held s i → Live s i

theorem Sound.single {s : Voice} (sound : Sound s) : Single s := by
  have loose (quiet : s.calls = []) {i : Nat} (playing : Playing s i) : Loose s i :=
    ⟨playing,by simp [quiet]⟩
  constructor
  · intro quiet i j first second
    exact sound.one i j (loose quiet first) (loose quiet second)
  · intro quiet i playing
    exact sound.held i (loose quiet playing)
  · exact sound.live

section Step
variable {s t : Voice} {i : Nat} {player : Player}

theorem Sound.shrink (sound : Sound s) (loose : ∀ i, Loose t i → Loose s i)
    (slots : ∀ side, t.slot side = s.slot side) (live : ∀ i, Held s i → Live s i → Live t i) :
    Sound t := by
  have held (i : Nat) : Held t i ↔ Held s i := by simp only [Held,slots]
  constructor
  · intro i j first second
    exact sound.one i j (loose i first) (loose j second)
  · intro i playing
    exact (held i).mpr (sound.held i (loose i playing))
  · intro i kept
    have before := (held i).mp kept
    exact live i before (sound.live i before)

theorem playing_set {players : List Player} {next : Player} (found : players[i]? = some player)
    (silent : next.disposed = true ∨ next.playerState ≠ .playing) {j : Nat}
    (playing : ∃ p ∈ (players.set i next)[j]?, p.disposed = false ∧ p.playerState = .playing) :
    j ≠ i ∧ ∃ p ∈ players[j]?, p.disposed = false ∧ p.playerState = .playing := by
  obtain ⟨p,listed,live,plays⟩ := playing
  by_cases same : i = j
  · subst same
    obtain ⟨bound,_⟩ := List.getElem?_eq_some_iff.mp found
    rw [Option.mem_def,List.getElem?_set_self bound] at listed
    cases Option.some.inj listed
    simp [live,plays] at silent
  · rw [Option.mem_def,List.getElem?_set_ne same] at listed
    exact ⟨Ne.symm same,p,listed,live,plays⟩

theorem live_set {players : List Player} {next : Player} (found : players[i]? = some player)
    {j : Nat} (kept : i = j → next.disposed = false)
    (live : ∃ p ∈ players[j]?, p.disposed = false) :
    ∃ p ∈ (players.set i next)[j]?, p.disposed = false := by
  by_cases same : i = j
  · subst same
    obtain ⟨bound,_⟩ := List.getElem?_eq_some_iff.mp found
    exact ⟨next,List.getElem?_set_self bound,kept rfl⟩
  · obtain ⟨p,listed,alive⟩ := live
    exact ⟨p,(List.getElem?_set_ne same).trans listed,alive⟩

theorem setPlayerState_cases {playerState : PlayerState}
    (set : s.setPlayerState i playerState = some t) : ∃ player, s.players[i]? = some player ∧
      player.disposed = false ∧
      t = {s with players := s.players.set i {player with playerState := playerState}} := by
  obtain ⟨player,found,rest⟩ := Option.bind_eq_some_iff.mp set
  split at rest
  · contradiction
  next live => exact ⟨player,found,by simpa using live,(Option.some.inj rest).symm⟩

theorem sound_silenced {playerState : PlayerState} (silent : playerState ≠ .playing)
    (sound : Sound s) (set : s.setPlayerState i playerState = some t) : Sound t := by
  obtain ⟨player,found,live,rfl⟩ := setPlayerState_cases set
  apply sound.shrink
  · rintro j ⟨playing,calm⟩
    exact ⟨(playing_set found (.inr silent) playing).2,calm⟩
  · intro side
    cases side <;> rfl
  · intro j _ alive
    exact live_set found (fun _ => live) alive

theorem sound_initState (sound : Sound s) (side : Side) :
    Sound {s with players := s.players ++ [{side := side}]} := by
  apply sound.shrink
  · rintro i ⟨⟨player,listed,live,plays⟩,calm⟩
    rcases Pool.mem_appended.mp listed with old | ⟨_,rfl⟩
    · exact ⟨⟨player,old,live,plays⟩,calm⟩
    · contradiction
  · intro side
    cases side <;> rfl
  · rintro i _ ⟨player,listed,live⟩
    exact ⟨player,Pool.mem_appended.mpr (.inl listed),live⟩

theorem sound_await (sound : Sound s) (call : Call) : Sound (s.await call) := by
  apply sound.shrink
  · rintro i ⟨playing,calm⟩
    exact ⟨playing,fun waits => calm (List.mem_append_left _ waits)⟩
  · intro side
    cases side <;> rfl
  · exact fun _ _ live => live

theorem slot_setSlot (s : Voice) (side other : Side) (player : Option Nat) :
    (s.setSlot side player).slot other = if other = side then player else s.slot other := by
  cases side <;> cases other <;> rfl

theorem setSlot_players (s : Voice) (side : Side) (player : Option Nat) :
    (s.setSlot side player).players = s.players := by
  cases side <;> rfl

theorem setSlot_calls (s : Voice) (side : Side) (player : Option Nat) :
    (s.setSlot side player).calls = s.calls := by
  cases side <;> rfl

theorem playing_setSlot {side : Side} {slot : Option Nat} :
    (Playing (s.setSlot side slot) i ↔ Playing s i) ∧ (Live (s.setSlot side slot) i ↔ Live s i) ∧
      (Loose (s.setSlot side slot) i ↔ Loose s i) := by
  simp only [Loose,Playing,Live,setSlot_players,setSlot_calls,and_self]

/-- Another player in a slot: whatever is playing keeps its slot or is this player. -/
theorem sound_setSlot {side : Side} {slot : Option Nat} (sound : Sound s)
    (taken : ∀ j ∈ s.slot side, slot ≠ some j → ¬ Loose s j)
    (live : ∀ j ∈ slot, Live s j) : Sound (s.setSlot side slot) := by
  constructor
  · intro i j first second
    exact sound.one i j (playing_setSlot.2.2.mp first) (playing_setSlot.2.2.mp second)
  · intro i loose
    have before := playing_setSlot.2.2.mp loose
    obtain ⟨own,held⟩ := sound.held i before
    by_cases here : own = side
    · subst here
      refine ⟨own,?_⟩
      rw [slot_setSlot,if_pos rfl]
      by_contra other
      exact taken i held other before
    · exact ⟨own,by rw [slot_setSlot,if_neg here,held]⟩
  · rintro i ⟨own,held⟩
    apply playing_setSlot.2.1.mpr
    rw [slot_setSlot] at held
    split at held
    · exact live i held
    · exact sound.live i ⟨own,held⟩

theorem sound_pauseSlot (sound : Sound s) (side : Side) : Sound (s.pauseSlot side) := by
  unfold Voice.pauseSlot
  split
  next player taken =>
    apply sound_setSlot (sound_await sound _)
    · intro j here _ loose
      have same : j = player := Option.some.inj (here.symm.trans taken)
      subst same
      exact loose.2 (List.mem_append_right _ (List.mem_singleton_self _))
    · simp
  next => exact sound

theorem sound_play (sound : Sound s) (side : Side) : Sound (s.play i side) := by
  have tapped : Sound {s with played := some i} := by
    apply sound.shrink
    · exact fun _ loose => loose
    · intro side
      cases side <;> rfl
    · exact fun _ _ live => live
  exact sound_await (sound_pauseSlot (sound_pauseSlot tapped side) side.other) _

theorem sound_dispose (sound : Sound s) (found : s.players[i]? = some player)
    (free : ¬ Held s i) :
    Sound {s with players := s.players.set i {player with disposed := true}} := by
  apply sound.shrink
  · rintro j ⟨playing,calm⟩
    exact ⟨(playing_set found (.inl rfl) playing).2,calm⟩
  · intro side
    cases side <;> rfl
  · intro j held live
    exact live_set found (fun same => absurd (same ▸ held) free) live

/-! The completion of a call. -/

theorem sound_removed {call : Nat} (sound : Sound s) (found : s.calls[call]? = some (.play i)) :
    Sound (s.resumed call) := by
  apply sound.shrink
  · rintro j ⟨playing,calm⟩
    refine ⟨playing,fun waits => calm ?_⟩
    rcases (Pool.mem_resumed found).mp waits with same | other
    · contradiction
    · exact other
  · intro side
    cases side <;> rfl
  · exact fun _ _ live => live

theorem sound_registered (sound : Sound s) (found : s.players[i]? = some player)
    (live : player.disposed = false)
    (taken : ∀ j ∈ s.slot player.side, j ≠ i → ¬ Loose s j) : Sound (s.register i) := by
  rw [Voice.register,found]
  apply sound_setSlot sound
  · intro j here other
    exact taken j here fun same => other (congrArg some same.symm)
  · rintro j own
    cases Option.some.inj own
    exact ⟨player,found,live⟩

theorem sound_paused {call : Nat} {outcome : Outcome} (sound : Sound s)
    (found : s.calls[call]? = some (.pause i))
    (calm : CallCalm (s.resumed call) outcome (.pause i)) :
    Sound ((s.resumed call).continued outcome (.pause i)) := by
  have others {j : Nat} (loose : Loose (s.resumed call) j) (other : j ≠ i) : Loose s j := by
    refine ⟨loose.1,fun waits => loose.2 ?_⟩
    rcases (Pool.mem_resumed found).mp waits with same | rest
    · exact absurd (Call.pause.inj same) other
    · exact rest
  have slots (side : Side) : (s.resumed call).slot side = s.slot side := by cases side <;> rfl
  have failed (calm : Loose (s.resumed call) i → Held (s.resumed call) i ∧
      ∀ j < (s.resumed call).players.length, Loose (s.resumed call) j → j = i) :
      Sound (s.resumed call) := by
    by_cases free : Loose (s.resumed call) i
    · obtain ⟨held,alone⟩ := calm free
      have only {j : Nat} (loose : Loose (s.resumed call) j) : j = i := by
        obtain ⟨player,listed,_⟩ := loose.1
        exact alone j (List.getElem?_eq_some_iff.mp listed).1 loose
      constructor
      · intro j k first second
        rw [only first,only second]
      · intro j loose
        rwa [only loose]
      · exact sound.live
    · apply sound.shrink
      · intro j loose
        exact others loose fun same => free (same ▸ loose)
      · exact slots
      · exact fun _ _ live => live
  cases outcome with
  | refused => exact failed calm
  | thrown => exact failed calm
  | success =>
    rw [Voice.continued,if_pos rfl]
    cases set : (s.resumed call).setPlayerState i .paused with
    | some t =>
      obtain ⟨player,listed,live,rfl⟩ := setPlayerState_cases set
      apply sound.shrink
      · rintro j ⟨playing,waits⟩
        obtain ⟨other,before⟩ := playing_set listed (.inr (by simp)) playing
        exact others ⟨before,waits⟩ other
      · intro side
        cases side <;> rfl
      · intro j _ alive
        exact live_set listed (fun _ => live) alive
    | none =>
      apply sound.shrink
      · rintro j loose
        refine others loose ?_
        rintro rfl
        obtain ⟨⟨player,listed,live,_⟩,_⟩ := loose
        have throws : player.disposed = true := by
          simp only [Voice.setPlayerState,Option.bind_eq_none_iff] at set
          simpa using set player listed
        simp [live] at throws
      · exact slots
      · exact fun _ _ live => live

theorem sound_started (sound : Sound s) (found : s.players[i]? = some player)
    (live : player.disposed = false)
    (taken : ∀ side, ∀ j ∈ s.slot side, j ≠ i → ¬ Loose s j) :
    Sound (Voice.register
      {s with players := s.players.set i {player with playerState := .playing}} i) := by
  obtain ⟨bound,_⟩ := List.getElem?_eq_some_iff.mp found
  have own : (s.players.set i {player with playerState := .playing})[i]? =
      some {player with playerState := .playing} := List.getElem?_set_self bound
  simp only [Voice.register,own]
  have only {j : Nat} (loose : Loose
      {s with players := s.players.set i {player with playerState := .playing}} j) : j = i := by
    by_contra other
    obtain ⟨⟨p,listed,plays⟩,calm⟩ := loose
    have before : Loose s j :=
      ⟨⟨p,(List.getElem?_set_ne (Ne.symm other)).symm.trans listed,plays⟩,calm⟩
    obtain ⟨side,held⟩ := sound.held j before
    exact taken side j held other before
  constructor
  · intro j k first second
    rw [only (playing_setSlot.2.2.mp first),only (playing_setSlot.2.2.mp second)]
  · intro j loose
    rw [only (playing_setSlot.2.2.mp loose)]
    exact ⟨player.side,by rw [slot_setSlot,if_pos rfl]⟩
  · rintro j ⟨side,held⟩
    apply playing_setSlot.2.1.mpr
    rw [slot_setSlot] at held
    have alive (before : Live s j) : Live
        {s with players := s.players.set i {player with playerState := .playing}} j :=
      live_set found (fun _ => live) before
    split at held
    · cases Option.some.inj held
      exact alive ⟨player,found,live⟩
    · apply alive
      apply sound.live
      refine ⟨side,?_⟩
      cases side <;> exact held

theorem sound_resumed {call : Nat} {outcome : Outcome} {c : Call} (sound : Sound s)
    (found : s.calls[call]? = some c) (calm : CallCalm (s.resumed call) outcome c) :
    Sound ((s.resumed call).continued outcome c) := by
  cases c with
  | pause i => exact sound_paused sound found calm
  | play i =>
    have removed := sound_removed sound found
    cases outcome with
    | thrown => exact removed
    | refused =>
      obtain ⟨player,listed,live,taken⟩ := calm
      exact sound_registered removed listed live taken
    | success =>
      rw [Voice.continued]
      cases set : (s.resumed call).setPlayerState i .playing with
      | none => exact removed
      | some t =>
        obtain ⟨player,listed,live,rfl⟩ := setPlayerState_cases set
        exact sound_started removed listed live (calm ⟨player,listed,live⟩)

theorem sound_step {a : Action} (sound : Sound s) (calm : Calm s a) (stepped : s.step a = some t) :
    Sound t := by
  cases a with
  | initState side =>
    cases Option.some.inj stepped
    exact sound_initState sound side
  | onPressed i =>
    obtain ⟨player,_,rest⟩ := Option.bind_eq_some_iff.mp stepped
    split at rest
    · contradiction
    · split at rest
      · cases Option.some.inj rest
        exact sound_await sound _
      · cases Option.some.inj rest
        exact sound_play sound player.side
  | stopped i => exact sound_silenced (by simp) sound stepped
  | dispose i =>
    obtain ⟨player,found,rest⟩ := Option.bind_eq_some_iff.mp stepped
    split at rest
    · contradiction
    · cases Option.some.inj rest
      exact sound_dispose sound found calm
  | resume call outcome =>
    obtain ⟨c,found,rfl⟩ := Option.map_eq_some_iff.mp stepped
    exact sound_resumed sound found (calm c found)

/-! With one message at a time, a player that starts finds both slots empty. -/

structure Prepared (s : Voice) : Prop where
  empty : ∀ i, .play i ∈ s.calls →
    s.played = some i ∧ Live s i ∧ ∀ side, s.slot side = none
  once : s.calls.countP Call.plays ≤ 1
  held : ∀ i, Held s i → s.played = some i

theorem calm_of_prepared {a : Action} (prepared : Prepared s) (single : OneAtATime s a) :
    Calm s a := by
  cases a with
  | initState | onPressed | stopped => trivial
  | dispose i => exact fun held => single (prepared.held i held)
  | resume call outcome =>
    intro c found
    have slots (side : Side) : (s.resumed call).slot side = s.slot side := by cases side <;> rfl
    cases c with
    | pause i =>
      cases single _ found rfl
      trivial
    | play i =>
      obtain ⟨_,⟨player,listed,live⟩,empty⟩ := prepared.empty i (List.mem_of_getElem? found)
      cases outcome with
      | thrown => trivial
      | success =>
        intro _ side j taken
        rw [slots,empty] at taken
        contradiction
      | refused =>
        refine ⟨player,listed,live,fun j taken => ?_⟩
        rw [slots,empty] at taken
        contradiction

theorem Prepared.shrink (prepared : Prepared s) (calls : t.calls.Sublist s.calls)
    (slots : ∀ side, t.slot side = s.slot side) (played : t.played = s.played)
    (live : ∀ i, s.played = some i → Live s i → Live t i) : Prepared t := by
  constructor
  · intro i waits
    obtain ⟨last,alive,empty⟩ := prepared.empty i (calls.subset waits)
    exact ⟨played.trans last,live i last alive,fun side => (slots side).trans (empty side)⟩
  · exact Nat.le_trans calls.countP_le prepared.once
  · rintro i ⟨side,held⟩
    exact played.trans (prepared.held i ⟨side,(slots side).symm.trans held⟩)

theorem Prepared.await_pause (prepared : Prepared s) (i : Nat) : Prepared (s.await (.pause i)) := by
  have slots (side : Side) : (s.await (.pause i)).slot side = s.slot side := by
    cases side <;> rfl
  constructor
  · intro j waits
    rcases List.mem_append.mp waits with old | new
    · obtain ⟨last,live,empty⟩ := prepared.empty j old
      exact ⟨last,live,fun side => (slots side).trans (empty side)⟩
    · simp at new
  · simpa [Voice.await,List.countP_append,Call.plays] using prepared.once
  · rintro j ⟨side,held⟩
    exact prepared.held j ⟨side,(slots side).symm.trans held⟩

theorem pauseSlot_empty (s : Voice) (side : Side) : (s.pauseSlot side).slot side = none := by
  unfold Voice.pauseSlot
  split
  · rw [slot_setSlot,if_pos rfl]
  · assumption

theorem pauseSlot_other (s : Voice) {side other : Side} (different : other ≠ side) :
    (s.pauseSlot side).slot other = s.slot other := by
  unfold Voice.pauseSlot
  split
  · rw [slot_setSlot,if_neg different]
    cases other <;> rfl
  · rfl

theorem pauseSlot_same (s : Voice) (side : Side) :
    (s.pauseSlot side).players = s.players ∧ (s.pauseSlot side).played = s.played ∧
      (s.pauseSlot side).calls.countP Call.plays = s.calls.countP Call.plays := by
  unfold Voice.pauseSlot
  split
  · cases side <;> simp [Voice.setSlot,Voice.await,List.countP_append,Call.plays]
  · exact ⟨rfl,rfl,rfl⟩

theorem play_slots (s : Voice) (i : Nat) (side other : Side) :
    (s.play i side).slot other = none := by
  have awaited (t : Voice) : (t.await (.play i)).slot other = t.slot other := by
    cases other <;> rfl
  rw [Voice.play,awaited]
  by_cases same : other = side.other
  · rw [same,pauseSlot_empty]
  · have own : other = side := by cases side <;> cases other <;> simp_all [Side.other]
    rw [pauseSlot_other _ same,own,pauseSlot_empty]

theorem prepared_play (found : s.players[i]? = some player) (live : player.disposed = false)
    (idle : ∀ c ∈ s.calls, c.plays = false) (side : Side) : Prepared (s.play i side) := by
  let first : Voice := {s with played := some i}.pauseSlot side
  obtain ⟨players,played,calls⟩ := pauseSlot_same {s with played := some i} side
  obtain ⟨players',played',calls'⟩ := pauseSlot_same first side.other
  have none : (first.pauseSlot side.other).calls.countP Call.plays = 0 := by
    rw [calls',calls]
    exact List.countP_eq_zero.mpr fun c member => by simp [idle c member]
  constructor
  · intro j waits
    rcases List.mem_append.mp waits with old | new
    · exact absurd (List.countP_eq_zero.mp none _ old) (by simp [Call.plays])
    · cases List.mem_singleton.mp new
      refine ⟨played'.trans played,⟨player,?_,live⟩,play_slots s i side⟩
      exact (congrArg (·[i]?) (players'.trans players)).trans found
  · have counted : (s.play i side).calls.countP Call.plays = 0 + 1 := by
      rw [Voice.play,Voice.await,List.countP_append,none]
      rfl
    exact Nat.le_of_eq counted
  · rintro j ⟨other,held⟩
    rw [play_slots] at held
    contradiction

theorem prepared_register (prepared : Prepared s) (last : s.played = some i)
    (idle : ∀ c ∈ s.calls, c.plays = false) : Prepared (s.register i) := by
  unfold Voice.register
  split
  next player _ =>
    constructor
    · intro j waits
      rw [setSlot_calls] at waits
      simpa [Call.plays] using idle _ waits
    · rw [setSlot_calls]
      exact prepared.once
    · rintro j ⟨side,held⟩
      have kept : (s.setSlot player.side (some i)).played = s.played := by
        cases player.side <;> rfl
      rw [slot_setSlot] at held
      rw [kept]
      split at held
      · exact last.trans held
      · exact prepared.held j ⟨side,held⟩
  next => exact prepared

theorem prepared_setPlayerState {playerState : PlayerState} (prepared : Prepared s)
    (set : s.setPlayerState i playerState = some t) : Prepared t := by
  obtain ⟨player,found,live,rfl⟩ := setPlayerState_cases set
  refine prepared.shrink (List.Sublist.refl s.calls) ?_ ?_ ?_
  · intro side
    cases side <;> rfl
  · rfl
  · exact fun _ _ alive => live_set found (fun _ => live) alive

theorem prepared_resumed {call : Nat} {outcome : Outcome} {c : Call} (prepared : Prepared s)
    (found : s.calls[call]? = some c) : Prepared ((s.resumed call).continued outcome c) := by
  have removed : Prepared (s.resumed call) := by
    apply prepared.shrink (List.eraseIdx_sublist s.calls call)
    · intro side
      cases side <;> rfl
    · rfl
    · exact fun _ _ live => live
  cases c with
  | pause i =>
    rw [Voice.continued]
    split
    · cases set : (s.resumed call).setPlayerState i .paused with
      | none => exact removed
      | some t => exact prepared_setPlayerState removed set
    · exact removed
  | play i =>
    have last : (s.resumed call).played = some i :=
      (prepared.empty i (List.mem_of_getElem? found)).1
    -- the call that completes is the only one that plays
    have idle : ∀ c ∈ (s.resumed call).calls, c.plays = false := by
      have counted := (Pool.perm_resumed found).countP_eq Call.plays
      rw [List.countP_cons_of_pos (by rfl)] at counted
      have none : (s.calls.eraseIdx call).countP Call.plays = 0 := by
        have once := prepared.once
        omega
      intro c member
      simpa using List.countP_eq_zero.mp none c member
    cases outcome with
    | thrown => exact removed
    | refused => exact prepared_register removed last idle
    | success =>
      rw [Voice.continued]
      cases set : (s.resumed call).setPlayerState i .playing with
      | none => exact removed
      | some t =>
        have playing := prepared_setPlayerState removed set
        obtain ⟨_,_,_,rfl⟩ := setPlayerState_cases set
        exact prepared_register playing last idle

theorem prepared_step {a : Action} (prepared : Prepared s) (single : OneAtATime s a)
    (stepped : s.step a = some t) : Prepared t := by
  cases a with
  | initState side =>
    cases Option.some.inj stepped
    refine prepared.shrink (List.Sublist.refl s.calls) ?_ ?_ ?_
    · intro side
      cases side <;> rfl
    · rfl
    · rintro i _ ⟨player,listed,live⟩
      exact ⟨player,Pool.mem_appended.mpr (.inl listed),live⟩
  | onPressed i =>
    obtain ⟨player,found,rest⟩ := Option.bind_eq_some_iff.mp stepped
    split at rest
    · contradiction
    next live =>
      split at rest
      · cases Option.some.inj rest
        exact prepared.await_pause i
      next silent =>
        cases Option.some.inj rest
        exact prepared_play found (by simpa using live) (single player found silent) player.side
  | stopped i => exact prepared_setPlayerState prepared stepped
  | dispose i =>
    obtain ⟨player,found,rest⟩ := Option.bind_eq_some_iff.mp stepped
    split at rest
    · contradiction
    · cases Option.some.inj rest
      refine prepared.shrink (List.Sublist.refl s.calls) ?_ ?_ ?_
      · intro side
        cases side <;> rfl
      · rfl
      · intro j last live
        exact live_set found (fun same => absurd (same ▸ last) single) live
  | resume call outcome =>
    obtain ⟨c,found,rfl⟩ := Option.map_eq_some_iff.mp stepped
    exact prepared_resumed prepared found

end Step

/-- In every run in which one message is played at a time, a single voice message plays, and it
is the one in the slots. -/
theorem single_voice {s : Voice} {as : List Action} (run : Run Voice.step OneAtATime {} as s) :
    Single s := by
  have empty (i : Nat) : ¬ Held {} i := by
    rintro ⟨side,held⟩
    cases side <;> contradiction
  have silent (i : Nat) : ¬ Loose {} i := by
    rintro ⟨⟨player,listed,_⟩,_⟩
    contradiction
  have start : Sound {} ∧ Prepared {} := by
    refine ⟨⟨?_,?_,?_⟩,⟨?_,?_,?_⟩⟩
    · exact fun i _ loose => absurd loose (silent i)
    · exact fun i loose => absurd loose (silent i)
    · exact fun i held => absurd held (empty i)
    · exact fun i waits => absurd waits List.not_mem_nil
    · exact Nat.zero_le 1
    · exact fun i held => absurd held (empty i)
  have kept : Sound s ∧ Prepared s := by
    refine run.invariant (fun s => Sound s ∧ Prepared s) start ?_
    intro s a t ⟨sound,prepared⟩ single stepped
    exact ⟨sound_step sound (calm_of_prepared prepared single) stepped,
      prepared_step prepared single stepped⟩
  exact kept.1.single

theorem single_voice_two : ∃ s, Run Voice.step OneAtATime {}
    [.initState .right,.initState .left,.onPressed 0,.resume 0 .success,.onPressed 1,
      .resume 1 .success,.resume 0 .success] s ∧ (s.calls = [] ∧ Playing s 1) ∧ Single s := by
  have computed : ∃ s, Run Voice.step OneAtATime {}
      [.initState .right,.initState .left,.onPressed 0,.resume 0 .success,.onPressed 1,
        .resume 1 .success,.resume 0 .success] s ∧ s.calls = [] ∧ Playing s 1 :=
    Run.exists_of_exec (by decide)
  obtain ⟨s,run,plays⟩ := computed
  exact ⟨s,run,plays,single_voice run⟩

/-- Two messages tapped before the first of them has started both play. -/
theorem two_voices_play : ¬ ∀ (as : List Action) (s : Voice), Run Voice.step anyStep {} as s →
    Single s := by
  intro claimed
  have computed : ∃ s, Run Voice.step anyStep {}
      [.initState .right,.initState .left,.onPressed 0,.onPressed 1,.resume 0 .success,
        .resume 0 .success] s ∧ s.calls = [] ∧ Playing s 0 ∧ Playing s 1 :=
    Run.exists_of_exec (by decide)
  obtain ⟨s,run,quiet,first,second⟩ := computed
  exact absurd ((claimed _ s run).one quiet 0 1 first second) (by omega)

end Neuro.VoicePlayer
