import Neuro.Lib.Sexagesimal
import Mathlib.Algebra.Order.Ring.Int

/-! The countdown of the inbox and request rows: a periodic timer takes whole seconds
off the remaining time, and the format of its text is picked from the initial one. -/
namespace Neuro.CountdownTimer
open Neuro.Lib Sexagesimal

/-- Microseconds in 64 bits. -/
structure Duration where
  inMicroseconds : Int
  low : -2 ^ 63 ≤ inMicroseconds
  high : inMicroseconds < 2 ^ 63
  deriving DecidableEq

namespace Duration

def ofMicroseconds (n : Int) : Duration where
  inMicroseconds := n.bmod (2 ^ 64)
  low := by
    have bound : -((2 ^ 64 : Nat) / 2 : Int) ≤ n.bmod (2 ^ 64) := Int.le_bmod (by omega)
    omega
  high := by
    have bound : n.bmod (2 ^ 64) < ((2 ^ 64 : Nat) + 1) / 2 := Int.bmod_lt (by omega)
    omega

def ofSeconds (seconds : Int) : Duration := ofMicroseconds (seconds * 1000000)

def inSeconds (d : Duration) : Int := d.inMicroseconds.tdiv 1000000

def inMinutes (d : Duration) : Int := d.inMicroseconds.tdiv 60000000

def inHours (d : Duration) : Int := d.inMicroseconds.tdiv 3600000000

def isNegative (d : Duration) : Bool := d.inMicroseconds < 0

end Duration

structure Countdown where
  duration : Duration
  onFinish : Bool := true

/-- `finished` counts the calls of `onFinish`. -/
structure CountdownState where
  duration : Duration
  isActive : Bool := true
  finished : Nat := 0
  deriving DecidableEq

def initState (widget : Countdown) : CountdownState := {duration := widget.duration}

def timerCallback (widget : Countdown) (s : CountdownState) : CountdownState :=
  if s.duration.inSeconds = 0 then
    {s with isActive := false,finished := s.finished + if widget.onFinish then 1 else 0}
  else {s with duration := .ofSeconds (s.duration.inSeconds - 1)}

/-- Once it is cancelled, the timer fires no more. -/
def tick (widget : Countdown) (s : CountdownState) : CountdownState :=
  if s.isActive then timerCallback widget s else s

def elapsed (widget : Countdown) : Nat → CountdownState
  | 0 => initState widget
  | n + 1 => tick widget (elapsed widget n)

def ticks (d : Duration) : Nat := (max 0 d.inSeconds).toNat + 1

structure Ends (widget : Countdown) : Prop where
  active : ∀ n, (elapsed widget n).isActive = decide (n < ticks widget.duration)
  finished : ∀ n, (elapsed widget n).finished =
    if widget.onFinish = true ∧ ticks widget.duration ≤ n then 1 else 0
  decreases : ∀ n, n + 1 < ticks widget.duration → (elapsed widget (n + 1)).duration.inMicroseconds =
    (elapsed widget n).duration.inMicroseconds - 1000000
  shown : ∀ n, (elapsed widget n).duration.isNegative = false

/-- Not expired, and whole seconds or less than one of them. -/
def Counts (d : Duration) : Prop :=
  d.isNegative = false ∧ (d.inMicroseconds % 1000000 = 0 ∨ d.inMicroseconds < 1000000)

theorem ofSeconds_inMicroseconds {seconds : Int} (low : -2 ^ 63 ≤ seconds * 1000000)
    (high : seconds * 1000000 < 2 ^ 63) :
    (Duration.ofSeconds seconds).inMicroseconds = seconds * 1000000 :=
  Int.bmod_eq_of_le (by omega) (by omega)

section Positive
variable {d : Duration}

theorem inSeconds_eq (positive : d.isNegative = false) :
    d.inSeconds = d.inMicroseconds / 1000000 :=
  Int.tdiv_eq_ediv_of_nonneg (by simpa [Duration.isNegative] using positive)

theorem inSeconds_ofSeconds (seconds : Int) (low : 0 ≤ seconds)
    (high : seconds ≤ d.inSeconds) (positive : d.isNegative = false) :
    (Duration.ofSeconds seconds).isNegative = false ∧
      (Duration.ofSeconds seconds).inMicroseconds = seconds * 1000000 ∧
      (Duration.ofSeconds seconds).inSeconds = seconds := by
  have bound := d.high
  rw [inSeconds_eq positive] at high
  have exact : (Duration.ofSeconds seconds).inMicroseconds = seconds * 1000000 :=
    ofSeconds_inMicroseconds (by omega) (by omega)
  have kept : (Duration.ofSeconds seconds).isNegative = false := by
    simp only [Duration.isNegative,exact,decide_eq_false_iff_not]
    omega
  refine ⟨kept,exact,?_⟩
  rw [inSeconds_eq kept,exact]
  omega

end Positive

section Run
variable {widget : Countdown} (positive : widget.duration.isNegative = false)
include positive

theorem seconds_nonneg : 0 ≤ widget.duration.inSeconds := by
  rw [inSeconds_eq positive]
  simp only [Duration.isNegative,decide_eq_false_iff_not] at positive
  omega

/-- Until it ends, every tick takes one off the whole seconds. -/
theorem elapsed_running {n : Nat} (running : n < ticks widget.duration) :
    elapsed widget n = {
      duration := if n = 0 then widget.duration
        else .ofSeconds (widget.duration.inSeconds - n)} := by
  have start := seconds_nonneg positive
  induction n with
  | zero => rfl
  | succ n ih =>
    have before := ih (by omega)
    have left : (elapsed widget n).duration.inSeconds = widget.duration.inSeconds - n := by
      rw [before]
      dsimp only
      split
      next first => simp [first]
      next => exact (inSeconds_ofSeconds _ (by simp only [ticks] at running; omega) (by omega)
        positive).2.2
    have awake : (elapsed widget n).isActive = true := by rw [before]
    simp only [ticks] at running
    rw [elapsed,tick,if_pos awake,timerCallback,left,if_neg (by omega),before]
    simp only [Nat.add_eq_zero_iff,Nat.one_ne_zero,and_false,if_false]
    rw [Nat.cast_add,Nat.cast_one,Int.sub_sub]

theorem elapsed_seconds {n : Nat} (running : n < ticks widget.duration) :
    (elapsed widget n).duration.isNegative = false ∧
      (elapsed widget n).duration.inSeconds = widget.duration.inSeconds - n := by
  rw [elapsed_running positive running]
  dsimp only
  split
  next first => exact ⟨positive,by simp [first]⟩
  next =>
    have start := seconds_nonneg positive
    simp only [ticks] at running
    obtain ⟨kept,_,exact⟩ := inSeconds_ofSeconds (d := widget.duration)
      (widget.duration.inSeconds - n) (by omega) (by omega) positive
    exact ⟨kept,exact⟩

theorem elapsed_ended {n : Nat} (ended : ticks widget.duration ≤ n) :
    elapsed widget n = {
      duration := (elapsed widget (ticks widget.duration - 1)).duration
      isActive := false
      finished := if widget.onFinish then 1 else 0} := by
  have start := seconds_nonneg positive
  induction n, ended using Nat.le_induction with
  | base =>
    have last : ticks widget.duration - 1 < ticks widget.duration := by simp [ticks]
    have left := (elapsed_seconds positive last).2
    have before := elapsed_running positive last
    have zero : (elapsed widget (ticks widget.duration - 1)).duration.inSeconds = 0 := by
      rw [left]
      simp only [ticks]
      omega
    have awake : (elapsed widget (ticks widget.duration - 1)).isActive = true := by rw [before]
    have counted : (elapsed widget (ticks widget.duration - 1)).finished = 0 := by rw [before]
    calc elapsed widget (ticks widget.duration)
        = tick widget (elapsed widget (ticks widget.duration - 1)) := rfl
      _ = _ := by simp only [tick,awake,if_true,timerCallback,zero,counted,Nat.zero_add]
  | succ n _ ih => rw [elapsed,ih,tick,if_neg (by simp)]

theorem elapsed_duration (n : Nat) :
    ∃ m < ticks widget.duration, (elapsed widget n).duration = (elapsed widget m).duration := by
  by_cases running : n < ticks widget.duration
  · exact ⟨n,running,rfl⟩
  · refine ⟨ticks widget.duration - 1,by simp [ticks],?_⟩
    rw [elapsed_ended positive (by omega)]

theorem ends_of_counts (counts : Counts widget.duration) : Ends widget := by
  constructor
  · intro n
    by_cases running : n < ticks widget.duration
    · rw [elapsed_running positive running]
      simp [running]
    · rw [elapsed_ended positive (by omega)]
      simp [running]
  · intro n
    by_cases running : n < ticks widget.duration
    · rw [elapsed_running positive running]
      simp [Nat.not_le_of_lt running]
    · rw [elapsed_ended positive (by omega)]
      simp [Nat.le_of_not_lt running]
  · intro n running
    have start := inSeconds_eq positive
    simp only [ticks] at running
    obtain ⟨_,exact,_⟩ := inSeconds_ofSeconds (d := widget.duration)
      (widget.duration.inSeconds - (n + 1 : Nat)) (by omega) (by omega) positive
    rw [elapsed_running positive (by simp only [ticks]; omega),
      elapsed_running positive (by simp only [ticks]; omega)]
    simp only [Nat.add_eq_zero_iff,Nat.one_ne_zero,and_false,if_false,exact]
    split
    next first =>
      rcases counts.2 with whole | short
      · subst first
        omega
      · omega
    next later =>
      obtain ⟨_,before,_⟩ := inSeconds_ofSeconds (d := widget.duration)
        (widget.duration.inSeconds - n) (by omega) (by omega) positive
      rw [before]
      omega
  · intro n
    obtain ⟨m,running,same⟩ := elapsed_duration positive n
    rw [same]
    exact (elapsed_seconds positive running).1

end Run

/-- The timer of a countdown ends on time exactly when its duration is not negative
and, from one second on, whole. -/
theorem countdown_ends_iff (widget : Countdown) : Ends widget ↔ Counts widget.duration := by
  constructor
  · intro ends
    have positive : widget.duration.isNegative = false := ends.shown 0
    refine ⟨positive,?_⟩
    by_cases short : widget.duration.inMicroseconds < 1000000
    · exact .inr short
    · have start := inSeconds_eq positive
      have running : 0 + 1 < ticks widget.duration := by
        simp only [ticks]
        omega
      have first := ends.decreases 0 running
      obtain ⟨_,exact,_⟩ := inSeconds_ofSeconds (d := widget.duration)
        (widget.duration.inSeconds - (0 + 1 : Nat)) (by omega) (by omega) positive
      rw [elapsed_running positive running] at first
      simp only [Nat.zero_add,Nat.one_ne_zero,if_false] at first exact
      rw [exact] at first
      have kept : (elapsed widget 0).duration = widget.duration := rfl
      rw [kept] at first
      left
      omega
  · intro counts
    exact ends_of_counts counts.1 counts

/-- One second after its end a conversation is handed a duration of minus one second,
which the test against zero never meets on the way down. -/
theorem expired_countdown_runs_on : ¬ ∀ widget : Countdown, Ends widget := by
  intro claimed
  have shown := (claimed ⟨.ofSeconds (-1),true⟩).shown 0
  exact absurd shown (by decide)

/-! The text. -/

def twoDigits (n : Int) : String := if 10 ≤ n then toString n else "0" ++ toString n

def formatBySeconds (d : Duration) : String := twoDigits (d.inSeconds.tmod 60)

def formatByMinutes (d : Duration) : String :=
  twoDigits (d.inMinutes.tmod 60) ++ ":" ++ formatBySeconds d

def formatByHours (d : Duration) : String := twoDigits d.inHours ++ ":" ++ formatByMinutes d

/-- `custom` is the formatter of the widget, the duration its initial one. -/
def formatter (custom : Option (Duration → String)) (d : Duration) : Duration → String :=
  match custom with
  | some formatter => formatter
  | none =>
    if 1 ≤ d.inHours then formatByHours
    else if 1 ≤ d.inMinutes then formatByMinutes else formatBySeconds

def shownText (widget : Countdown) (n : Nat) : String :=
  formatter none widget.duration (elapsed widget n).duration

def Low (field : List Char) : Prop :=
  field.length = 2 ∧ (∀ c ∈ field, c.isDigit = true) ∧ value field < 60

def High (field : List Char) : Prop := 2 ≤ field.length ∧ ∀ c ∈ field, c.isDigit = true

/-- The parts of a text: seconds, minutes and seconds, or hours, minutes and seconds. -/
inductive Clock : List (List Char) → Prop
  | seconds {s} (low : Low s) : Clock [s]
  | minutes {m s} (minutes : Low m) (seconds : Low s) : Clock [m,s]
  | hours {h m s} (hours : High h) (minutes : Low m) (seconds : Low s) : Clock [h,m,s]

theorem twoDigits_cast (n : Nat) :
    twoDigits n = if 10 ≤ n then toString n else "0" ++ toString n := by
  simp only [twoDigits,Nat.ofNat_le_cast]
  rfl

theorem twoDigits_decimal (n : Nat) : Decimal (twoDigits n) := by
  rw [twoDigits_cast]
  split
  · exact decimal_repr n
  · intro c member
    simp only [String.toList_append,List.mem_append] at member
    rcases member with zero | digit
    · simp_all
    · exact decimal_repr n c digit

theorem twoDigits_value (n : Nat) : value (twoDigits n).toList = n := by
  rw [twoDigits_cast]
  split
  · exact value_repr n
  · rw [String.toList_append]
    exact value_repr n

theorem twoDigits_length (n : Nat) :
    2 ≤ (twoDigits n).toList.length ∧ (n < 100 → (twoDigits n).toList.length = 2) := by
  have one : (toString n).toList.length ≤ 1 ↔ n < 10 ^ 1 := by
    rw [Nat.toString_eq_repr,Nat.toList_repr]
    exact Nat.length_toDigits_le_iff (by omega) (by omega)
  have two : (toString n).toList.length ≤ 2 ↔ n < 10 ^ 2 := by
    rw [Nat.toString_eq_repr,Nat.toList_repr]
    exact Nat.length_toDigits_le_iff (by omega) (by omega)
  have some : 0 < (toString n).toList.length := by
    rw [Nat.toString_eq_repr,Nat.toList_repr]
    exact Nat.length_toDigits_pos
  rw [twoDigits_cast]
  split
  · omega
  · have padded : ("0" ++ toString n).toList.length = (toString n).toList.length + 1 := by
      simp [Nat.add_comm]
    omega

theorem low_twoDigits {n : Nat} (below : n < 60) : Low (twoDigits n).toList :=
  ⟨(twoDigits_length n).2 (by omega),twoDigits_decimal n,by rwa [twoDigits_value]⟩

theorem high_twoDigits (n : Nat) : High (twoDigits n).toList :=
  ⟨(twoDigits_length n).1,twoDigits_decimal n⟩

section Fields
variable {d : Duration} {s : Nat} (positive : d.isNegative = false) (seconds : d.inSeconds = s)
include positive seconds

theorem numbers : d.inSeconds.tmod 60 = (s % 60 : Nat) ∧
    d.inMinutes.tmod 60 = (s / 60 % 60 : Nat) ∧ d.inMinutes = (s / 60 : Nat) ∧
    d.inHours = (s / 3600 : Nat) := by
  have start := inSeconds_eq positive
  have whole : 0 ≤ d.inMicroseconds := by simpa [Duration.isNegative] using positive
  have minutes : d.inMinutes = (s / 60 : Nat) := by
    rw [Duration.inMinutes,Int.tdiv_eq_ediv_of_nonneg whole]
    omega
  refine ⟨?_,?_,minutes,?_⟩
  · rw [seconds,Int.tmod_eq_emod_of_nonneg (by omega)]
    omega
  · rw [minutes,Int.tmod_eq_emod_of_nonneg (by omega)]
    omega
  · rw [Duration.inHours,Int.tdiv_eq_ediv_of_nonneg whole]
    omega

theorem fields_bySeconds : fields (formatBySeconds d) = [(twoDigits (s % 60 : Nat)).toList] := by
  rw [formatBySeconds,(numbers positive seconds).1]
  exact fields_decimal (twoDigits_decimal _)

theorem fields_byMinutes : fields (formatByMinutes d) =
    [(twoDigits (s / 60 % 60 : Nat)).toList,(twoDigits (s % 60 : Nat)).toList] := by
  rw [formatByMinutes,(numbers positive seconds).2.1,fields_cons (twoDigits_decimal _),
    fields_bySeconds positive seconds]

theorem fields_byHours : fields (formatByHours d) = [(twoDigits (s / 3600 : Nat)).toList,
    (twoDigits (s / 60 % 60 : Nat)).toList,(twoDigits (s % 60 : Nat)).toList] := by
  rw [formatByHours,(numbers positive seconds).2.2.2,fields_cons (twoDigits_decimal _),
    fields_byMinutes positive seconds]

theorem formatter_faithful {longer : Duration} {most : Nat}
    (longerPositive : longer.isNegative = false) (longerSeconds : longer.inSeconds = most)
    (shorter : s ≤ most) :
    decode (formatter none longer d) = s ∧ Clock (fields (formatter none longer d)) := by
  obtain ⟨_,_,minutes,hours⟩ := numbers longerPositive longerSeconds
  have low := low_twoDigits (n := s % 60) (by omega)
  have middle := low_twoDigits (n := s / 60 % 60) (by omega)
  simp only [formatter,minutes,hours,decode]
  split
  · rw [fields_byHours positive seconds]
    refine ⟨?_,.hours (high_twoDigits _) middle low⟩
    simp only [List.foldl_cons,List.foldl_nil,twoDigits_value]
    omega
  · split
    · rw [fields_byMinutes positive seconds]
      refine ⟨?_,.minutes middle low⟩
      simp only [List.foldl_cons,List.foldl_nil,twoDigits_value]
      omega
    · rw [fields_bySeconds positive seconds]
      refine ⟨?_,.seconds low⟩
      simp only [List.foldl_cons,List.foldl_nil,twoDigits_value]
      omega

end Fields

/-- Every text reads back as the whole seconds left, no two of the remaining times print
alike, and the fields are those of a clock. -/
structure Faithful (widget : Countdown) : Prop where
  decodes : ∀ n, (decode (shownText widget n) : Int) = (elapsed widget n).duration.inSeconds
  separate : ∀ m n, shownText widget m = shownText widget n →
    (elapsed widget m).duration = (elapsed widget n).duration
  parts : ∀ n, Clock (fields (shownText widget n))

section Text
variable {widget : Countdown} (positive : widget.duration.isNegative = false)
include positive

theorem shownText_faithful (n : Nat) :
    (decode (shownText widget n) : Int) = (elapsed widget n).duration.inSeconds ∧
      Clock (fields (shownText widget n)) := by
  obtain ⟨m,running,same⟩ := elapsed_duration positive n
  obtain ⟨kept,left⟩ := elapsed_seconds positive running
  obtain ⟨most,longest⟩ := Int.eq_ofNat_of_zero_le (seconds_nonneg positive)
  have bound : m ≤ most := by
    simp only [ticks,longest] at running
    omega
  have seconds : (elapsed widget n).duration.inSeconds = (most - m : Nat) := by
    rw [same,left,longest]
    omega
  obtain ⟨decodes,parts⟩ := formatter_faithful (same ▸ kept) seconds positive longest
    (Nat.sub_le most m)
  exact ⟨by rw [shownText,decodes,seconds],parts⟩

theorem text_faithful : Faithful widget := by
  constructor
  · exact fun n => (shownText_faithful positive n).1
  · intro m n alike
    obtain ⟨i,first,sameFirst⟩ := elapsed_duration positive m
    obtain ⟨j,second,sameSecond⟩ := elapsed_duration positive n
    have seconds : (elapsed widget i).duration.inSeconds =
        (elapsed widget j).duration.inSeconds := by
      rw [← sameFirst,← sameSecond,← (shownText_faithful positive m).1,alike,
        (shownText_faithful positive n).1]
    rw [(elapsed_seconds positive first).2,(elapsed_seconds positive second).2] at seconds
    obtain rfl : i = j := by omega
    rw [sameFirst,sameSecond]
  · exact fun n => (shownText_faithful positive n).2

end Text

theorem text_faithful_hundred_hours : Faithful ⟨.ofSeconds 360000,true⟩ := text_faithful (by decide)

end Neuro.CountdownTimer
