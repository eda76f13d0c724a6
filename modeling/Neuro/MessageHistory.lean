import Neuro.ChatPaging

/-! Scrolling back through a conversation to which nothing is added. Each scroll at the
end starts a load below the last message shown, whether or not one is under way. -/
namespace Neuro.MessageHistory
open Neuro.Lib ChatPaging

/-- What a load has brought or will bring. -/
def page (stored : List Stored) : Call → List Stored
  | .older t => (below Stored.timestamp t stored).take 20
  | .olderServed docs => docs
  | .newer _ | .newerServed _ => []

/-- No load that brings anything is started while another one is under way, nor when the
next message has the time of the last one shown. -/
def Paged (s : Screen) : Action → Prop
  | .store _ => False
  | .scroll => ∀ last ∈ s.listMessage.getLast?, page s.stored (.older last.doc.timestamp) = [] ∨
    (∀ call ∈ s.calls, page s.stored call = []) ∧
      ∀ m ∈ s.stored[s.listMessage.length]?, m.timestamp < last.doc.timestamp
  | .stream | .event .. | .serve _ | .resume _ => True

instance : ∀ s a, Decidable (Paged s a)
  | _,.store _ => inferInstanceAs (Decidable False)
  | _,.scroll => inferInstanceAs (Decidable (∀ _ ∈ _, _ ∨ (∀ _ ∈ _, _) ∧ ∀ _ ∈ _, _))
  | _,.stream | _,.event .. | _,.serve _ | _,.resume _ => inferInstanceAs (Decidable True)

/-- The list is the newest part of the conversation. -/
structure Newest (s : Screen) : Prop where
  shown : ∃ k, s.docs = s.stored.take k
  descending : Descending Stored.timestamp s.docs
  once : (s.docs.map Stored.id).Nodup

/-- The part that is shown, and at most one load under way that brings the messages
right after it. -/
structure Contiguous (s : Screen) : Prop where
  start : s.docs <+: s.stored
  streamed : s.isLoading = false → s.docs = [] ∨ s.docs = s.stored.take 20
  idle : s.listMessage = [] → s.calls = []
  fits : ∀ call ∈ s.calls, page s.stored call = [] ∨
    page s.stored call = (s.stored.drop s.listMessage.length).take 20
  single : s.calls.countP (fun call => page s.stored call ≠ []) ≤ 1
  backward : ∀ call ∈ s.calls, ∀ t docs, call ≠ .newer t ∧ call ≠ .newerServed docs
  newest : ∀ last ∈ s.lastMessage, s.stored.head? = some last.doc
  told : ∀ queue ∈ s.listeners, ∀ m ∈ queue, s.stored.head? = some m

variable {s t : Screen}

theorem length_docs (s : Screen) : s.docs.length = s.listMessage.length := List.length_map ..

theorem Contiguous.take (contiguous : Contiguous s) :
    s.docs = s.stored.take s.listMessage.length := by
  rw [← length_docs]
  exact List.prefix_iff_eq_take.mp contiguous.start

theorem Contiguous.stream (contiguous : Contiguous s) (streaming : s.isLoading = false) :
    Contiguous s.stream := by
  have docs : s.stream.docs = s.stored.take 20 := by simp [Screen.stream,Screen.docs]
  have empty : s.listMessage = [] ∨ s.stream.listMessage.length = s.listMessage.length := by
    rcases contiguous.streamed streaming with none | some
    · exact .inl (List.map_eq_nil_iff.mp none)
    · right
      rw [← length_docs,← length_docs,docs,some]
  constructor
  · rw [docs]
    exact List.take_prefix ..
  · exact fun _ => .inr docs
  · intro none
    rcases empty with before | same
    · exact contiguous.idle before
    · apply contiguous.idle
      rw [none] at same
      exact List.length_eq_zero_iff.mp same.symm
  · intro call member
    rcases empty with before | same
    · rw [show s.stream.calls = [] from contiguous.idle before] at member
      exact absurd member List.not_mem_nil
    · rw [same]
      exact contiguous.fits call member
  · exact contiguous.single
  · exact contiguous.backward
  · intro last shown
    rcases Option.or_eq_some_iff.mp shown with new | ⟨_,old⟩
    · have first : s.stream.docs.head? = some last.doc := by
        rw [Screen.docs,List.head?_map,show s.stream.listMessage.head? = some last from new]
        rfl
      rw [docs,List.head?_take,if_neg (by decide)] at first
      exact first
    · exact contiguous.newest last old
  · exact contiguous.told

theorem Contiguous.scroll (contiguous : Contiguous s)
    (sorted : Descending Stored.timestamp s.stored) (paged : Paged s .scroll) :
    Contiguous s.scrollListener := by
  unfold Screen.scrollListener
  split
  next => exact contiguous
  next last found =>
    have shown : (s.stored.take s.listMessage.length).getLast? = some last.doc := by
      rw [← contiguous.take,Screen.docs,List.getLast?_map,found]
      rfl
    refine {contiguous with idle := fun none => ?_,fits := ?_,single := ?_,backward := ?_}
    · dsimp only at none
      simp [none] at found
    · apply Pool.forall_append contiguous.fits
      rcases paged last found with empty | ⟨_,step⟩
      · exact .inl empty
      · right
        rw [page,sorted.below_eq_drop shown step]
    · rw [List.countP_append]
      rcases paged last found with empty | ⟨others,_⟩
      · rw [List.countP_singleton,if_neg (by simpa using empty)]
        exact contiguous.single
      · have none : s.calls.countP (fun call => page s.stored call ≠ []) = 0 :=
          List.countP_eq_zero.mpr fun call member => by simpa using others call member
        rw [none,Nat.zero_add]
        exact List.countP_le_length
    · exact Pool.forall_append contiguous.backward (by simp)

/-- A listener is told of the message that is on top already. -/
theorem Contiguous.event {l skip : Nat} {queue : List Stored} {newest : Stored}
    (contiguous : Contiguous s) (listens : s.listeners[l]? = some queue)
    (told : queue[skip]? = some newest) :
    Contiguous (Screen.onData {s with listeners := s.listeners.set l (queue.drop (skip + 1))}
      newest) := by
  have member := List.mem_of_getElem? listens
  have rest : Contiguous {s with listeners := s.listeners.set l (queue.drop (skip + 1))} := by
    refine {contiguous with told := ?_}
    apply Pool.forall_set contiguous.told
    exact fun m later => contiguous.told queue member m (List.mem_of_mem_drop later)
  unfold Screen.onData
  split
  · exact rest
  next last shown =>
    have first := contiguous.newest last shown
    rw [contiguous.told queue member newest (List.mem_of_getElem? told)] at first
    rw [if_pos (congrArg Stored.id (Option.some.inj first).symm)]
    exact rest

theorem Contiguous.serve {i : Nat} {call served : Call} (contiguous : Contiguous s)
    (found : s.calls[i]? = some call) (answered : s.answer call = some served) :
    Contiguous {s with calls := s.calls.set i served} := by
  have member := List.mem_of_getElem? found
  have same : page s.stored served = page s.stored call ∧
      ∀ t docs, served ≠ .newer t ∧ served ≠ .newerServed docs := by
    cases call with
    | older t =>
      cases Option.some.inj answered
      exact ⟨rfl,by simp⟩
    | newer t => exact absurd rfl (contiguous.backward _ member t []).1
    | olderServed | newerServed => contradiction
  refine {contiguous with idle := fun none => ?_,fits := ?_,single := ?_,backward := ?_}
  · have empty := contiguous.idle none
    simp [empty]
  · apply Pool.forall_set contiguous.fits
    rw [same.1]
    exact contiguous.fits call member
  · rw [Pool.countP_set _ found (by rw [same.1])]
    exact contiguous.single
  · exact Pool.forall_set contiguous.backward same.2

theorem Contiguous.resume {i : Nat} {docs : List Stored} (contiguous : Contiguous s)
    (found : s.calls[i]? = some (.olderServed docs)) (nonempty : s.listMessage ≠ []) :
    Contiguous ((Screen.loadToTrue {s with calls := s.calls.eraseIdx i}).addAll docs) := by
  have member := List.mem_of_getElem? found
  have shown : ((Screen.loadToTrue {s with calls := s.calls.eraseIdx i}).addAll docs).docs =
      s.docs ++ docs := by
    dsimp only [Screen.docs,Screen.addAll,Screen.loadToTrue]
    rw [List.map_append,docs_snapshots]
  have single := contiguous.single
  rw [(Pool.perm_resumed found).countP_eq,List.countP_cons] at single
  constructor
  · rw [shown]
    rcases contiguous.fits _ member with none | next
    · rw [show docs = [] from none,List.append_nil]
      exact contiguous.start
    · rw [show docs = (s.stored.drop s.listMessage.length).take 20 from next]
      have whole : s.stored = s.docs ++ s.stored.drop s.listMessage.length := by
        rw [contiguous.take,List.take_append_drop]
      conv_rhs => dsimp only [Screen.addAll,Screen.loadToTrue]; rw [whole]
      rw [List.prefix_append_right_inj]
      exact List.take_prefix ..
  · intro loading
    contradiction
  · intro none
    exact absurd (List.append_eq_nil_iff.mp none).1 nonempty
  · intro call later
    have old := List.mem_of_mem_eraseIdx later
    by_cases empty : docs = []
    · simpa [empty,snapshots,Screen.addAll,Screen.loadToTrue] using contiguous.fits call old
    · -- the page that came in was the only one
      left
      rw [page,if_pos (by simpa using empty)] at single
      have rest : (s.calls.eraseIdx i).countP (fun call => page s.stored call ≠ []) = 0 := by omega
      simpa [Screen.addAll,Screen.loadToTrue] using List.countP_eq_zero.mp rest call later
  · exact (Nat.le_add_right ..).trans single
  · exact fun call later => contiguous.backward call (List.mem_of_mem_eraseIdx later)
  · exact contiguous.newest
  · apply Pool.forall_append contiguous.told
    intro m first
    exact Option.mem_toList.mp first

theorem contiguous_step {a : Action} (contiguous : Contiguous s)
    (sorted : Descending Stored.timestamp s.stored) (paged : Paged s a)
    (stepped : s.step a = some t) : Contiguous t ∧ t.stored = s.stored := by
  cases stepped_of_step stepped with
  | store => exact paged.elim
  | stream streaming => exact ⟨contiguous.stream streaming,rfl⟩
  | scroll => exact ⟨contiguous.scroll sorted paged,(scrollListener_same s).1⟩
  | event listens told => exact ⟨contiguous.event listens told,(onData_same _ _).1⟩
  | serve found answered => exact ⟨contiguous.serve found answered,rfl⟩
  | older found =>
    have member := List.mem_of_getElem? found
    refine ⟨contiguous.resume found fun none => ?_,rfl⟩
    rw [contiguous.idle none] at member
    exact absurd member List.not_mem_nil
  | newer found =>
    exact absurd rfl (contiguous.backward _ (List.mem_of_getElem? found) 0 _).2

/-- A conversation that is scrolled back through one load at a time, with no two messages
of one time at the end of a page, is shown without gaps and repetitions. -/
theorem history_shown {stored : List Stored} (sorted : Descending Stored.timestamp stored)
    (distinct : (stored.map Stored.id).Nodup) {as : List Action}
    (run : Run Screen.step Paged {stored := stored} as s) : Newest s := by
  have start : Contiguous {stored := stored} := by
    constructor <;> simp [Screen.docs]
  obtain ⟨contiguous,same⟩ := run.invariant (fun s => Contiguous s ∧ s.stored = stored)
    ⟨start,rfl⟩ fun s a t both paged stepped => by
      obtain ⟨contiguous,same⟩ := contiguous_step both.1 (both.2 ▸ sorted) paged stepped
      exact ⟨contiguous,same.trans both.2⟩
  have part : s.docs.Sublist stored := same ▸ contiguous.start.sublist
  exact ⟨⟨_,contiguous.take⟩,sorted.sublist part,distinct.sublist (part.map _)⟩

def conversation (n : Nat) : List Stored := (List.range n).map fun i => ⟨toString i,n - i⟩

theorem history_shown_once : ∃ s,
    Run Screen.step Paged {stored := conversation 21} [.stream,.scroll,.serve 0,.resume 0] s ∧
      s.docs = conversation 21 ∧ Newest s := by
  obtain ⟨s,run,shown⟩ : ∃ s,
      Run Screen.step Paged {stored := conversation 21} [.stream,.scroll,.serve 0,.resume 0] s ∧
        s.docs = conversation 21 :=
    Run.exists_of_exec (by decide)
  exact ⟨s,run,shown,history_shown (by unfold Descending; decide) (by decide) run⟩

/-- Two scroll events in a row list the second page twice. -/
theorem history_of_two_scrolls : ∃ s,
    Run Screen.step anyStep {stored := conversation 21} [.stream,.scroll,.scroll,.serve 0,
      .serve 1,.resume 0,.resume 0] s ∧ s.calls = [] ∧ ¬ Newest s := by
  obtain ⟨s,run,quiet,twice⟩ : ∃ s,
      Run Screen.step anyStep {stored := conversation 21} [.stream,.scroll,.scroll,.serve 0,
        .serve 1,.resume 0,.resume 0] s ∧ s.calls = [] ∧ ¬ (s.docs.map Stored.id).Nodup :=
    Run.exists_of_exec (by decide)
  exact ⟨s,run,quiet,fun newest => twice newest.once⟩

/-- A message that has the time of the last one on the first page is never loaded. -/
example : ∃ s,
    Run Screen.step anyStep {stored := conversation 20 ++ [⟨"20",1⟩,⟨"21",0⟩]} [.stream,.scroll,
      .serve 0,.resume 0] s ∧ s.calls = [] ∧
      s.docs.map Stored.id = (List.range 20).map toString ++ ["21"] :=
  Run.exists_of_exec (by decide)

end Neuro.MessageHistory
