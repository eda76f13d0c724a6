import Neuro.ChatPaging

/-! New messages on a chat screen that has left the stream: a listener on the newest
message starts a query for what is newer than the last one shown, unless it has done so
for this last message before. -/
namespace Neuro.LiveMessages
open Neuro.Lib ChatPaging

/-- The query has brought the message or will bring everything that is newer. -/
def Brings (newest : Stored) : Call → Prop
  | .newer _ => True
  | .newerServed docs => newest ∈ docs
  | .older _ | .olderServed _ => False

instance (newest : Stored) : ∀ call, Decidable (Brings newest call)
  | .newer _ => inferInstanceAs (Decidable True)
  | .newerServed _ => inferInstanceAs (Decidable (_ ∈ _))
  | .older _ | .olderServed _ => inferInstanceAs (Decidable False)

def Follows (m : Stored) : Call → Prop
  | .newerServed docs => ∀ n ∈ docs, n.timestamp < m.timestamp
  | .newer _ | .older _ | .olderServed _ => True

instance (m : Stored) : ∀ call, Decidable (Follows m call)
  | .newerServed _ => inferInstanceAs (Decidable (∀ _ ∈ _, _))
  | .newer _ | .older _ | .olderServed _ => inferInstanceAs (Decidable True)

/-- A message is stored after those that are shown or have been queried, unless it belongs
to the older ones anyway. The last event that is left does not get lost: it names the last
message shown, or a newer one for which a query can start or is under way and brings it. -/
def Timely (head : Stored) (s : Screen) : Action → Prop
  | .store m => (m.timestamp ≤ head.timestamp ∧ ∀ n ∈ s.stored.head?, ¬ m.newerThan n) ∨
    (∀ last ∈ s.lastMessage, last.doc.timestamp < m.timestamp) ∧ ∀ call ∈ s.calls, Follows m call
  | .event l skip => ∀ queue ∈ s.listeners[l]?, ∀ newest ∈ queue[skip]?,
    (∀ left ∈ s.listeners.set l (queue.drop (skip + 1)), left = []) →
      ∀ last ∈ s.lastMessage, last.doc.id = newest.id ∨ last.doc.timestamp < newest.timestamp ∧
        (s.lastMessage ≠ s.templastMessage ∨ ∃ call ∈ s.calls, Brings newest call)
  | .stream | .scroll | .serve _ | .resume _ => True

instance (head : Stored) : ∀ s a, Decidable (Timely head s a)
  | _,.store _ => inferInstanceAs (Decidable (_ ∧ (∀ _ ∈ _, _) ∨ (∀ _ ∈ _, _) ∧ ∀ _ ∈ _, _))
  | _,.event .. => inferInstanceAs
    (Decidable (∀ _ ∈ _, ∀ _ ∈ _, (∀ _ ∈ _, _) → ∀ _ ∈ _, _ ∨ _ ∧ (_ ∨ ∃ _ ∈ _, _)))
  | _,.stream | _,.scroll | _,.serve _ | _,.resume _ => inferInstanceAs (Decidable True)

/-- The list begins with the newest message and holds everything newer than `head` in
front of the rest. -/
structure Live (head : Stored) (s : Screen) : Prop where
  newest : s.docs.head? = s.stored.head?
  whole : ∃ rest, s.docs = above Stored.timestamp head.timestamp s.stored ++ rest ∧
    ∀ m ∈ rest, m.timestamp ≤ head.timestamp
  descending : Descending Stored.timestamp (above Stored.timestamp head.timestamp s.stored)
  once : ((above Stored.timestamp head.timestamp s.stored).map Stored.id).Nodup

def Quiet (s : Screen) : Prop := s.calls = [] ∧ ∀ queue ∈ s.listeners, queue = []

instance (s : Screen) : Decidable (Quiet s) := inferInstanceAs (Decidable (_ ∧ ∀ _ ∈ _, _))

structure Ordered (stored : List Stored) : Prop where
  sorted : Descending Stored.timestamp stored
  distinct : (stored.map Stored.id).Nodup

/-- A load of older messages, below a message that is not newer than `bound`. -/
def Loads (bound : Int) : Call → Prop
  | .older t => t ≤ bound
  | .olderServed docs => ∀ m ∈ docs, m.timestamp ≤ bound
  | .newer _ | .newerServed _ => False

theorem Loads.mono {low high : Int} {call : Call} (loads : Loads low call) (within : low ≤ high) :
    Loads high call := by
  cases call with
  | older t => exact loads.trans within
  | olderServed docs => exact fun m member => (loads m member).trans within
  | newer | newerServed => exact loads

/-- Before the first older page arrives. -/
structure Streaming (s : Screen) : Prop where
  quiet : s.listeners = []
  idle : s.listMessage = [] → s.calls = []
  top : s.lastMessage = s.listMessage.head?
  shown : ∀ last ∈ s.lastMessage, ∀ m ∈ s.docs, m.timestamp ≤ last.doc.timestamp
  kept : ∀ m ∈ s.docs, m ∈ s.stored
  loads : ∀ call ∈ s.calls, ∀ last ∈ s.lastMessage, Loads last.doc.timestamp call

variable {s t : Screen} {m : Stored}

theorem Ordered.store (ordered : Ordered s.stored) (fresh : m.id ∉ s.stored.map Stored.id) :
    Ordered (s.store m).stored where
  sorted := by
    have sorted := ordered.sorted
    dsimp only [Screen.store]
    generalize s.stored = stored at sorted
    induction stored with
    | nil => exact List.pairwise_singleton ..
    | cons n rest ih =>
      obtain ⟨smaller,later⟩ := List.pairwise_cons.mp sorted
      rw [List.orderedInsert_cons]
      split
      next newer =>
        have least : n.timestamp ≤ m.timestamp := newer.elim le_of_lt fun same => same.1.le
        refine List.pairwise_cons.mpr ⟨fun k member => ?_,sorted⟩
        rcases List.mem_cons.mp member with rfl | member
        · exact least
        · exact (smaller k member).trans least
      next older =>
        refine List.pairwise_cons.mpr ⟨fun k member => ?_,ih later⟩
        rcases (List.mem_orderedInsert _).mp member with rfl | member
        · exact not_lt.mp fun less => older (.inl less)
        · exact smaller k member
  distinct := by
    have perm := (List.perm_orderedInsert Stored.newerThan m s.stored).map Stored.id
    exact perm.nodup_iff.mpr (List.nodup_cons.mpr ⟨fresh,ordered.distinct⟩)

theorem head?_store (s : Screen) (m : Stored) :
    (s.store m).stored.head? = s.stored.head? ∨ (s.store m).stored.head? = some m := by
  dsimp only [Screen.store]
  cases s.stored with
  | nil => exact .inr rfl
  | cons n rest =>
    rw [List.orderedInsert_cons]
    split
    · exact .inr rfl
    · exact .inl rfl

theorem Streaming.nonempty {call : Call} (streaming : Streaming s) (member : call ∈ s.calls) :
    ∃ last rest, s.listMessage = last :: rest := by
  apply List.exists_cons_of_ne_nil
  intro empty
  rw [streaming.idle empty] at member
  exact absurd member List.not_mem_nil

theorem Streaming.store (streaming : Streaming s) (m : Stored) : Streaming (s.store m) :=
  {streaming with
    quiet := by
      dsimp only [Screen.store]
      split
      · exact streaming.quiet
      · rw [streaming.quiet,List.map_nil]
    kept := fun n member => (List.mem_orderedInsert _).mpr (.inr (streaming.kept n member))}

theorem Streaming.stream (streaming : Streaming s) (ordered : Ordered s.stored) : Streaming s.stream := by
  have docs : s.stream.docs = s.stored.take 20 := by simp [Screen.stream,Screen.docs]
  have kept (n : Stored) (member : n ∈ s.stream.docs) : n ∈ s.stored :=
    List.mem_of_mem_take (docs ▸ member)
  have none (empty : s.stream.listMessage = []) : s.listMessage = [] := by
    have all : s.stored.take 20 = [] := by rw [← docs,Screen.docs,empty,List.map_nil]
    have nothing : s.stored = [] := (List.take_eq_nil_iff.mp all).resolve_left (by decide)
    apply List.eq_nil_iff_forall_not_mem.mpr
    intro x member
    have held := streaming.kept x.doc (List.mem_map_of_mem member)
    rw [nothing] at held
    exact absurd held List.not_mem_nil
  have top : s.stream.lastMessage = s.stream.listMessage.head? := by
    cases empty : s.stream.listMessage with
    | nil =>
      have old := streaming.top
      rw [none empty] at old
      dsimp only [Screen.stream] at empty ⊢
      rw [empty,old]
      rfl
    | cons x rest =>
      dsimp only [Screen.stream] at empty ⊢
      rw [empty]
      rfl
  have first (last : DocumentSnapshot) (shown : last ∈ s.stream.lastMessage) :
      s.stored.head? = some last.doc := by
    rw [Option.mem_def,top] at shown
    have head : s.stream.docs.head? = some last.doc := by
      rw [Screen.docs,List.head?_map,shown]
      rfl
    rwa [docs,List.head?_take,if_neg (by decide)] at head
  refine ⟨streaming.quiet,fun empty => streaming.idle (none empty),top,?_,kept,?_⟩
  · exact fun last shown n member => ordered.sorted.le_head (first last shown) n (kept n member)
  · intro call member last shown
    -- the last message only gets newer
    obtain ⟨x,rest,list⟩ := streaming.nonempty member
    have before : x ∈ s.lastMessage := by rw [streaming.top,list]; rfl
    have held : x.doc ∈ s.stored := streaming.kept x.doc (by simp [Screen.docs,list])
    have later := ordered.sorted.le_head (first last shown) x.doc held
    exact (streaming.loads call member x before).mono later

theorem Loads.served {bound : Int} {call served : Call} (loads : Loads bound call)
    (answered : s.answer call = some served) : Loads bound served := by
  cases call with
  | older t =>
    cases Option.some.inj answered
    intro n member
    exact ((mem_below.mp (List.mem_of_mem_take member)).2.trans_le loads).le
  | olderServed => contradiction
  | newer | newerServed => exact loads.elim

theorem Streaming.scroll (streaming : Streaming s) : Streaming s.scrollListener := by
  unfold Screen.scrollListener
  split
  next => exact streaming
  next last found =>
    refine {streaming with idle := fun none => ?_,loads := ?_}
    · dsimp only at none
      simp [none] at found
    · apply Pool.forall_append streaming.loads
      intro top shown
      exact streaming.shown top shown last.doc (List.mem_map_of_mem (List.mem_of_getLast? found))

theorem Streaming.serve {i : Nat} {call served : Call} (streaming : Streaming s)
    (found : s.calls[i]? = some call) (answered : s.answer call = some served) :
    Streaming {s with calls := s.calls.set i served} := by
  refine {streaming with idle := fun none => ?_,loads := ?_}
  · simp [streaming.idle none]
  · apply Pool.forall_set streaming.loads
    intro last shown
    exact (streaming.loads call (List.mem_of_getElem? found) last shown).served answered

/-- What is newer than the last message shown, as far as the query has seen. -/
def Fits (s : Screen) (head : Stored) (last : DocumentSnapshot) : Call → Prop
  | .older t => t ≤ head.timestamp
  | .olderServed docs => ∀ m ∈ docs, m.timestamp ≤ head.timestamp
  | .newer t => t = last.doc.timestamp ∧ s.templastMessage = some last
  | .newerServed docs => s.templastMessage = some last ∧ docs =
    band Stored.timestamp last.doc.timestamp (docs.head?.getD last.doc).timestamp s.stored

def newer : Call → Bool
  | .newer _ | .newerServed _ => true
  | .older _ | .olderServed _ => false

def Carries (stored : List Stored) (last : DocumentSnapshot) : Call → Prop
  | .newer _ => ∀ m ∈ stored.head?, last.doc.timestamp < m.timestamp
  | .newerServed docs => docs.head? = stored.head?
  | .older _ | .olderServed _ => False

/-- The newest message is shown or on its way. -/
def Covered (s : Screen) (last : DocumentSnapshot) : Prop :=
  s.stored.head? = some last.doc ∨ ∃ call ∈ s.calls, Carries s.stored last call

/-- After the first older page has arrived. -/
structure Paging (head : Stored) (last : DocumentSnapshot) (s : Screen) : Prop where
  ordered : Ordered s.stored
  loading : s.isLoading = true
  lastMessage : s.lastMessage = some last
  top : s.listMessage.head? = some last
  kept : last.doc ∈ s.stored
  later : head.timestamp ≤ last.doc.timestamp
  list : ∃ rest, rest ≠ [] ∧ (∀ m ∈ rest, m.timestamp ≤ head.timestamp) ∧ s.docs =
    band Stored.timestamp head.timestamp last.doc.timestamp s.stored ++ rest
  listening : s.listeners ≠ []
  queues : ∀ queue ∈ s.listeners, ∀ m ∈ queue.getLast?, s.stored.head? = some m
  covered : (∀ queue ∈ s.listeners, queue = []) → Covered s last
  single : s.calls.countP newer ≤ 1
  fits : ∀ call ∈ s.calls, Fits s head last call

variable {head : Stored} {last : DocumentSnapshot}

theorem fits_of_loads {call : Call} (loads : Loads head.timestamp call) : Fits s head last call := by
  cases call with
  | older | olderServed => exact loads
  | newer | newerServed => exact loads.elim

theorem Streaming.enter {i : Nat} {docs : List Stored} (streaming : Streaming s)
    (ordered : Ordered s.stored) (found : s.calls[i]? = some (.olderServed docs)) :
    ∃ last ∈ s.lastMessage, Paging last.doc last
      ((Screen.loadToTrue {s with calls := s.calls.eraseIdx i}).addAll docs) := by
  have member := List.mem_of_getElem? found
  obtain ⟨last,rest,list⟩ := streaming.nonempty member
  have shown : s.lastMessage = some last := by rw [streaming.top,list]; rfl
  have held : last.doc ∈ s.stored := streaming.kept last.doc (by simp [Screen.docs,list])
  obtain ⟨newest,later,stored⟩ := List.exists_cons_of_ne_nil (List.ne_nil_of_mem held)
  have listeners : ((Screen.loadToTrue {s with calls := s.calls.eraseIdx i}).addAll
      docs).listeners = [[newest]] := by
    simp [Screen.addAll,Screen.loadToTrue,streaming.quiet,stored]
  have docs' : ((Screen.loadToTrue {s with calls := s.calls.eraseIdx i}).addAll docs).docs =
      s.docs ++ docs := by
    simp [Screen.docs,Screen.addAll,Screen.loadToTrue]
  refine ⟨last,shown,{
    ordered := ordered
    loading := rfl
    lastMessage := shown
    top := by simp [Screen.addAll,Screen.loadToTrue,list]
    kept := held
    later := le_rfl
    list := ⟨s.docs ++ docs,by simp [Screen.docs,list],fun n inside => ?_,?_⟩
    listening := by rw [listeners]; simp
    queues := by rw [listeners]; simp [Screen.addAll,Screen.loadToTrue,stored]
    covered := by rw [listeners]; simp
    single := ?_
    fits := fun call inside =>
      fits_of_loads (streaming.loads call (List.mem_of_mem_eraseIdx inside) last shown)}⟩
  · rcases List.mem_append.mp inside with old | new
    · exact streaming.shown last shown n old
    · exact streaming.loads _ member last shown n new
  · rw [docs',band_self,List.nil_append]
  · refine (List.countP_eq_zero.mpr fun call inside => ?_).le.trans (Nat.zero_le 1)
    have load := streaming.loads call (List.mem_of_mem_eraseIdx inside) last shown
    cases call with
    | older | olderServed => simp [newer]
    | newer | newerServed => exact load.elim

theorem Covered.mono (covered : Covered s last) (stored : t.stored = s.stored)
    (kept : ∀ call ∈ s.calls, Carries s.stored last call → call ∈ t.calls) : Covered t last := by
  rw [Covered,stored]
  rcases covered with shown | ⟨call,member,carries⟩
  · exact .inl shown
  · exact .inr ⟨call,kept call member carries,carries⟩

theorem outside_of_timely (paging : Paging head last s) (timely : Timely head s (.store m)) :
    m.timestamp ≤ head.timestamp ∨ last.doc.timestamp < m.timestamp := by
  rcases timely with ⟨older,_⟩ | ⟨newer,_⟩
  · exact .inl older
  · exact .inr (newer last paging.lastMessage)

theorem Paging.fits_store {call : Call} (paging : Paging head last s) (member : call ∈ s.calls)
    (timely : Timely head s (.store m)) : Fits (s.store m) head last call := by
  have fits := paging.fits call member
  cases call with
  | older | olderServed | newer => exact fits
  | newerServed docs =>
    refine ⟨fits.1,fits.2.trans (band_orderedInsert _ ?_).symm⟩
    rcases timely with ⟨older,_⟩ | ⟨newer,follows⟩
    · exact .inl (older.trans paging.later)
    · right
      cases found : docs.head? with
      | none => exact newer last paging.lastMessage
      | some top => exact follows _ member top (List.mem_of_mem_head? found)

theorem Paging.store (paging : Paging head last s) (fresh : m.id ∉ s.stored.map Stored.id)
    (timely : Timely head s (.store m)) : Paging head last (s.store m) := by
  have outside := outside_of_timely paging timely
  obtain ⟨rest,some,bounded,shown⟩ := paging.list
  refine {paging with
    ordered := paging.ordered.store fresh
    kept := (List.mem_orderedInsert _).mpr (.inr paging.kept)
    list := ⟨rest,some,bounded,shown.trans ?_⟩
    listening := ?_
    queues := ?_
    covered := ?_
    fits := fun call member => paging.fits_store member timely}
  · exact congrArg (· ++ rest) (band_orderedInsert _ outside).symm
  all_goals
    dsimp only [Screen.store]
    split
  · exact paging.listening
  · simpa using paging.listening
  next same =>
    intro queue member newest inside
    exact same.trans (paging.queues queue member newest inside)
  next other =>
    intro queue member newest inside
    obtain ⟨old,_,rfl⟩ := List.mem_map.mp member
    rw [List.getLast?_concat] at inside
    cases Option.some.inj inside
    exact (head?_store s m).resolve_left other
  next same =>
    intro empty
    rcases paging.covered empty with top | ⟨call,member,carries⟩
    · exact .inl (same.trans top)
    · refine .inr ⟨call,member,?_⟩
      cases call with
      | older | olderServed => exact carries
      | newer t => exact fun n first => carries n (same ▸ first)
      | newerServed docs => exact carries.trans same.symm
  next other =>
    intro empty
    obtain ⟨queue,others,list⟩ := List.exists_cons_of_ne_nil paging.listening
    simp [list] at empty

theorem Paging.scroll (paging : Paging head last s) : Paging head last s.scrollListener := by
  unfold Screen.scrollListener
  split
  next => exact paging
  next bottom found =>
    obtain ⟨rest,nonempty,bounded,shown⟩ := paging.list
    have old : bottom.doc ∈ rest := by
      have lowest : s.docs.getLast? = some bottom.doc := by
        rw [Screen.docs,List.getLast?_map,found]
        rfl
      rw [shown,List.getLast?_append,List.getLast?_eq_some_getLast nonempty] at lowest
      rw [← Option.some.inj lowest]
      exact List.getLast_mem nonempty
    refine {paging with covered := ?_,single := ?_,fits := ?_}
    · exact fun empty => (paging.covered empty).mono rfl fun call member _ =>
        List.mem_append_left _ member
    · simpa [List.countP_append,newer] using paging.single
    · exact Pool.forall_append paging.fits (bounded bottom.doc old)

theorem Fits.served {call served : Call} (fits : Fits s head last call) (ordered : Ordered s.stored)
    (answered : s.answer call = some served) : Fits s head last served := by
  cases call with
  | older t =>
    have loads : Loads head.timestamp (.older t) := fits
    exact fits_of_loads (loads.served answered)
  | newer t =>
    cases Option.some.inj answered
    obtain ⟨rfl,queried⟩ := fits
    refine ⟨queried,?_⟩
    apply above_eq_band
    intro m member
    cases first : (above Stored.timestamp last.doc.timestamp s.stored).head? with
    | none => simp [List.head?_eq_none_iff.mp first] at member
    | some top => exact Descending.le_head (ordered.sorted.filter _) first m member
  | olderServed | newerServed => contradiction

theorem newer_served {call served : Call} (answered : s.answer call = some served) :
    newer served = newer call := by
  cases call with
  | older | newer => cases Option.some.inj answered; rfl
  | olderServed | newerServed => contradiction

theorem Carries.served {call served : Call} (carries : Carries s.stored last call)
    (fits : Fits s head last call) (kept : last.doc ∈ s.stored)
    (answered : s.answer call = some served) : Carries s.stored last served := by
  cases call with
  | newer t =>
    cases Option.some.inj answered
    obtain ⟨newest,rest,stored⟩ := List.exists_cons_of_ne_nil (List.ne_nil_of_mem kept)
    have first : s.stored.head? = some newest := by rw [stored]; rfl
    exact (head?_above first (fits.1 ▸ carries newest first)).trans first.symm
  | older | olderServed => exact carries.elim
  | newerServed => contradiction

theorem Paging.serve {i : Nat} {call served : Call} (paging : Paging head last s)
    (found : s.calls[i]? = some call) (answered : s.answer call = some served) :
    Paging head last {s with calls := s.calls.set i served} := by
  have fits := paging.fits call (List.mem_of_getElem? found)
  refine {paging with covered := fun empty => ?_,single := ?_,fits := ?_}
  · rcases paging.covered empty with top | ⟨other,member,carries⟩
    · exact .inl top
    · right
      rcases Pool.mem_set_of_mem found served member with rfl | kept
      · exact ⟨served,List.mem_set (List.getElem?_eq_some_iff.mp found).1 _,
          carries.served fits paging.kept answered⟩
      · exact ⟨other,kept,carries⟩
  · rw [Pool.countP_set _ found (newer_served answered)]
    exact paging.single
  · exact Pool.forall_set paging.fits (fits.served paging.ordered answered)

theorem carries_of_brings {call : Call} {newest : Stored} (brings : Brings newest call)
    (fits : Fits s head last call) (ordered : Ordered s.stored)
    (first : s.stored.head? = some newest)
    (later : last.doc.timestamp < newest.timestamp) : Carries s.stored last call := by
  cases call with
  | older | olderServed => exact brings
  | newer t =>
    intro m found
    rw [Option.mem_def,first] at found
    exact Option.some.inj found ▸ later
  | newerServed docs =>
    cases docs with
    | nil => exact absurd brings List.not_mem_nil
    | cons d ds =>
      have part : d :: ds = band Stored.timestamp last.doc.timestamp d.timestamp s.stored := fits.2
      have within : newest.timestamp ≤ d.timestamp := by
        rw [Brings,part] at brings
        exact (mem_band.mp brings).2.2
      have whole : d :: ds = above Stored.timestamp last.doc.timestamp s.stored := by
        rw [part]
        refine (above_eq_band fun m member => ?_).symm
        exact (ordered.sorted.le_head first m (mem_above.mp member).1).trans within
      rw [Carries,whole,first]
      exact head?_above first later

theorem Paging.last_event {l skip : Nat} {queue : List Stored} {newest : Stored}
    (paging : Paging head last s) (listens : s.listeners[l]? = some queue)
    (told : queue[skip]? = some newest)
    (empty : ∀ left ∈ s.listeners.set l (queue.drop (skip + 1)), left = []) :
    s.stored.head? = some newest := by
  have bound := (List.getElem?_eq_some_iff.mp listens).1
  have before := (List.getElem?_eq_some_iff.mp told).1
  have finished := List.drop_eq_nil_iff.mp (empty _ (List.mem_set bound _))
  apply paging.queues queue (List.mem_of_getElem? listens)
  rw [Option.mem_def,List.getLast?_eq_getElem?,← told]
  congr 1
  omega

/-- A query that is under way was started for this last message. -/
theorem Paging.no_newer (paging : Paging head last s) (differs : s.templastMessage ≠ some last) :
    ∀ call ∈ s.calls, newer call = false := by
  intro call member
  have fits := paging.fits call member
  cases call with
  | older | olderServed => rfl
  | newer => exact absurd fits.2 differs
  | newerServed => exact absurd fits.1 differs

theorem Paging.event {l skip : Nat} {queue : List Stored} {newest : Stored}
    (paging : Paging head last s) (listens : s.listeners[l]? = some queue)
    (told : queue[skip]? = some newest) (timely : Timely head s (.event l skip)) :
    Paging head last (Screen.onData {s with listeners := s.listeners.set l (queue.drop (skip + 1))}
      newest) := by
  have first := paging.last_event listens told
  have listening : s.listeners.set l (queue.drop (skip + 1)) ≠ [] := by
    simpa using paging.listening
  have queues : ∀ left ∈ s.listeners.set l (queue.drop (skip + 1)), ∀ m ∈ left.getLast?,
      s.stored.head? = some m := by
    apply Pool.forall_set paging.queues
    intro m final
    apply paging.queues queue (List.mem_of_getElem? listens)
    rw [List.getLast?_drop] at final
    split at final
    · contradiction
    · exact final
  have keeps := timely queue listens newest told
  dsimp only [Screen.onData]
  rw [paging.lastMessage]
  dsimp only
  split
  next same =>
    refine {paging with
      lastMessage := rfl
      listening := listening
      queues := queues
      covered := fun empty => ?_}
    have stored := List.mem_of_mem_head? (first empty)
    left
    rw [first empty]
    exact congrArg some (List.inj_on_of_nodup_map paging.ordered.distinct paging.kept stored
      same).symm
  next other =>
    dsimp only [Screen.newMessageListener]
    split
    next again =>
      refine {paging with
        lastMessage := rfl
        listening := listening
        queues := queues
        covered := fun empty => ?_}
      obtain ⟨later,started⟩ := (keeps empty last paging.lastMessage).resolve_left other
      obtain ⟨call,member,brings⟩ := started.resolve_left fun differ =>
        differ (paging.lastMessage.trans again)
      exact .inr ⟨call,member,carries_of_brings brings (paging.fits call member) paging.ordered
        (first empty) later⟩
    next differs =>
      have none := paging.no_newer fun same => differs same.symm
      refine {paging with
        lastMessage := rfl
        listening := listening
        queues := queues
        covered := fun empty => ?_
        single := ?_
        fits := ?_}
      · obtain ⟨later,_⟩ := (keeps empty last paging.lastMessage).resolve_left other
        refine .inr ⟨_,List.mem_append_right _ (List.mem_singleton.mpr rfl),fun m found => ?_⟩
        rw [Option.mem_def,first empty] at found
        exact Option.some.inj found ▸ later
      · rw [List.countP_append,List.countP_eq_zero.mpr fun call member => by simp [none call member]]
        exact (Nat.zero_add _).trans_le List.countP_le_length
      · refine Pool.forall_append (fun call member => ?_) ⟨rfl,rfl⟩
        have fits := paging.fits call member
        have old := none call member
        cases call with
        | older | olderServed => exact fits
        | newer | newerServed => contradiction

theorem Paging.resumeOlder {i : Nat} {docs : List Stored} (paging : Paging head last s)
    (found : s.calls[i]? = some (.olderServed docs)) :
    Paging head last ((Screen.loadToTrue {s with calls := s.calls.eraseIdx i}).addAll docs) := by
  have bound : ∀ m ∈ docs, m.timestamp ≤ head.timestamp :=
    paging.fits _ (List.mem_of_getElem? found)
  obtain ⟨rest,nonempty,bounded,shown⟩ := paging.list
  obtain ⟨newest,_,stored⟩ := List.exists_cons_of_ne_nil (List.ne_nil_of_mem paging.kept)
  have grown : ((Screen.loadToTrue {s with calls := s.calls.eraseIdx i}).addAll docs).docs =
      s.docs ++ docs := by
    simp [Screen.docs,Screen.addAll,Screen.loadToTrue]
  refine {paging with
    loading := rfl
    top := by simp [Screen.addAll,Screen.loadToTrue,paging.top]
    list := ⟨rest ++ docs,by simp [nonempty],fun m member => ?_,?_⟩
    listening := by simp [Screen.addAll,Screen.loadToTrue]
    queues := ?_
    covered := fun empty => ?_
    single := ?_
    fits := fun call member => paging.fits call (List.mem_of_mem_eraseIdx member)}
  · rcases List.mem_append.mp member with old | new
    · exact bounded m old
    · exact bound m new
  · rw [grown,shown,List.append_assoc]
    rfl
  · apply Pool.forall_append paging.queues
    intro m first
    rw [stored] at first
    exact stored ▸ first
  · have none : s.stored.head?.toList = [] :=
      empty _ (List.mem_append_right _ (List.mem_singleton.mpr rfl))
    simp [stored] at none
  · have before := paging.single
    rw [(Pool.perm_resumed found).countP_eq] at before
    exact before

theorem Paging.resumeNewer {i : Nat} {docs : List Stored} (paging : Paging head last s)
    (found : s.calls[i]? = some (.newerServed docs)) :
    ∃ last, Paging head last (Screen.insertAll {s with calls := s.calls.eraseIdx i} docs) := by
  have fits := paging.fits _ (List.mem_of_getElem? found)
  have others : ∀ call ∈ s.calls.eraseIdx i, newer call = false := by
    have single := paging.single
    rw [(Pool.perm_resumed found).countP_eq,List.countP_cons_of_pos rfl] at single
    have none : (s.calls.eraseIdx i).countP newer = 0 := by omega
    simpa using List.countP_eq_zero.mp none
  have single : (s.calls.eraseIdx i).countP newer ≤ 1 := by
    rw [List.countP_eq_zero.mpr (by simpa using others)]
    exact Nat.zero_le 1
  cases docs with
  | nil =>
    refine ⟨last,?_⟩
    rw [show Screen.insertAll {s with calls := s.calls.eraseIdx i} [] =
      {s with calls := s.calls.eraseIdx i} by
        simp [Screen.insertAll,snapshots,paging.top,paging.lastMessage]]
    refine {paging with covered := fun empty => ?_,single := single,fits := ?_}
    · refine (paging.covered empty).mono rfl fun call member carries => ?_
      rcases (Pool.mem_resumed found).mp member with rfl | kept
      · have none : s.stored = [] := List.head?_eq_none_iff.mp carries.symm
        exact absurd (none ▸ paging.kept) List.not_mem_nil
      · exact kept
    · exact fun call member => paging.fits call (List.mem_of_mem_eraseIdx member)
  | cons d ds =>
    have part : d :: ds = band Stored.timestamp last.doc.timestamp d.timestamp s.stored := fits.2
    have member : d ∈ band Stored.timestamp last.doc.timestamp d.timestamp s.stored :=
      part ▸ List.mem_cons_self
    obtain ⟨kept,later,_⟩ := mem_band.mp member
    obtain ⟨rest,nonempty,bounded,shown⟩ := paging.list
    refine ⟨⟨s.serial,d⟩,{paging with
      lastMessage := by simp [Screen.insertAll,snapshots]
      top := by simp [Screen.insertAll,snapshots]
      kept := kept
      later := paging.later.trans later.le
      list := ⟨rest,nonempty,bounded,?_⟩
      covered := fun empty => ?_
      single := single
      fits := fun call inside => ?_}⟩
    · have grown : (Screen.insertAll {s with calls := s.calls.eraseIdx i} (d :: ds)).docs =
          (d :: ds) ++ s.docs := by
        simp [Screen.docs,Screen.insertAll]
      rw [grown,shown,part,← List.append_assoc,
        paging.ordered.sorted.band_append paging.later later.le]
      rfl
    · left
      rcases paging.covered empty with top | ⟨call,inside,carries⟩
      · exact absurd (paging.ordered.sorted.le_head top d kept) (not_le_of_gt later)
      · rcases (Pool.mem_resumed found).mp inside with rfl | other
        · exact Eq.symm carries
        · have old := others call other
          cases call with
          | older | olderServed => exact carries.elim
          | newer | newerServed => contradiction
    · have old := others call inside
      cases call with
      | older | olderServed => exact paging.fits _ (List.mem_of_mem_eraseIdx inside)
      | newer | newerServed => contradiction

theorem Paging.step {a : Action} (paging : Paging head last s) (timely : Timely head s a)
    (stepped : s.step a = some t) : ∃ last, Paging head last t := by
  cases stepped_of_step stepped with
  | store fresh => exact ⟨last,paging.store fresh timely⟩
  | stream streaming => exact Bool.noConfusion (paging.loading.symm.trans streaming)
  | scroll => exact ⟨last,paging.scroll⟩
  | event listens told => exact ⟨last,paging.event listens told timely⟩
  | serve found answered => exact ⟨last,paging.serve found answered⟩
  | older found => exact ⟨last,paging.resumeOlder found⟩
  | newer found => exact paging.resumeNewer found

theorem Paging.live (paging : Paging head last s) (quiet : Quiet s) : Live head s := by
  obtain ⟨rest,_,bounded,shown⟩ := paging.list
  have newest : s.stored.head? = some last.doc := by
    rcases paging.covered quiet.2 with top | ⟨call,member,_⟩
    · exact top
    · rw [quiet.1] at member
      exact absurd member List.not_mem_nil
  have whole : above Stored.timestamp head.timestamp s.stored =
      band Stored.timestamp head.timestamp last.doc.timestamp s.stored :=
    above_eq_band fun m member => paging.ordered.sorted.le_head newest m (mem_above.mp member).1
  refine ⟨?_,⟨rest,whole ▸ shown,bounded⟩,paging.ordered.sorted.filter _,?_⟩
  · rw [newest,Screen.docs,List.head?_map,paging.top]
    rfl
  · exact paging.ordered.distinct.sublist (List.filter_sublist.map _)

def Before (s : Screen) : Prop := Ordered s.stored ∧ (s.isLoading = false → Streaming s)

theorem Streaming.loading {call : Call} (streaming : Streaming s) (member : call ∈ s.calls) :
    ∃ last ∈ s.lastMessage, Loads last.doc.timestamp call := by
  obtain ⟨last,rest,list⟩ := streaming.nonempty member
  have shown : s.lastMessage = some last := by rw [streaming.top,list]; rfl
  exact ⟨last,shown,streaming.loads call member last shown⟩

theorem Before.step {a : Action} (before : Before s) (stepped : s.step a = some t) : Before t := by
  obtain ⟨ordered,streaming⟩ := before
  cases stepped_of_step stepped with
  | store fresh => exact ⟨ordered.store fresh,fun idle => (streaming idle).store _⟩
  | stream idle => exact ⟨ordered,fun _ => (streaming idle).stream ordered⟩
  | scroll =>
    obtain ⟨stored,loading⟩ := scrollListener_same s
    exact ⟨stored ▸ ordered,fun idle => (streaming (loading ▸ idle)).scroll⟩
  | @event l skip queue newest listens told =>
    obtain ⟨stored,loading⟩ :=
      onData_same {s with listeners := s.listeners.set l (queue.drop (skip + 1))} newest
    refine ⟨by rw [stored]; exact ordered,fun idle => ?_⟩
    -- nobody listens yet
    rw [(streaming (loading ▸ idle)).quiet] at listens
    contradiction
  | serve found answered => exact ⟨ordered,fun idle => (streaming idle).serve found answered⟩
  | older found => exact ⟨ordered,fun idle => Bool.noConfusion idle⟩
  | newer found =>
    refine ⟨ordered,fun idle => ?_⟩
    obtain ⟨_,_,loads⟩ := (streaming idle).loading (List.mem_of_getElem? found)
    exact loads.elim

/-- After the first older page, when messages arrive in order and the last event is not
lost, the list ends up with everything that is newer than what it began with then. -/
theorem live_after_paging {stored : List Stored} (sorted : Descending Stored.timestamp stored)
    (distinct : (stored.map Stored.id).Nodup) {as bs : List Action} {before entered : Screen}
    (streaming : Run Screen.step anyStep {stored := stored} as before)
    (idle : before.isLoading = false) (shown : before.lastMessage = some last) {i : Nat}
    (started : before.step (.resume i) = some entered)
    (paging : Run Screen.step (Timely last.doc) entered bs s) (quiet : Quiet s) :
    Live last.doc s := by
  have start : Before {stored := stored} := by
    refine ⟨⟨sorted,distinct⟩,fun _ => ?_⟩
    constructor <;> simp [Screen.docs]
  obtain ⟨ordered,kept⟩ := streaming.invariant Before start fun s a t before _ stepped =>
    before.step stepped
  have enters : ∃ head, Paging last.doc head entered := by
    cases stepped_of_step started with
    | older found =>
      obtain ⟨head,top,entered⟩ := (kept idle).enter ordered found
      cases shown.symm.trans top
      exact ⟨last,entered⟩
    | newer found =>
      obtain ⟨_,_,loads⟩ := (kept idle).loading (List.mem_of_getElem? found)
      exact loads.elim
  obtain ⟨head,after⟩ := paging.invariant (fun s => ∃ head, Paging last.doc head s) enters
    fun s a t holds timely stepped => holds.elim fun head after => after.step timely stepped
  exact after.live quiet

theorem live_after_paging_twice : ∃ before entered s last,
    Run Screen.step anyStep {stored := [⟨"1",1⟩]} [.stream,.scroll,.serve 0] before ∧
      before.step (.resume 0) = some entered ∧
      Run Screen.step (Timely last) entered [.event 0 0,.store ⟨"2",2⟩,.event 0 0,.serve 0,
        .resume 0,.store ⟨"3",3⟩,.event 0 0,.serve 0,.resume 0] s ∧
      s.docs = [⟨"3",3⟩,⟨"2",2⟩,⟨"1",1⟩] ∧ Live last s := by
  obtain ⟨before,streaming,idle,⟨serial,doc⟩,shown,entered,started,computed⟩ :
      ∃ before, Run Screen.step anyStep {stored := [⟨"1",1⟩]} [.stream,.scroll,.serve 0] before ∧
        before.isLoading = false ∧ ∃ last ∈ before.lastMessage,
        ∃ entered ∈ before.step (.resume 0),
        (exec Screen.step (Timely last.doc) entered [.event 0 0,.store ⟨"2",2⟩,.event 0 0,.serve 0,
          .resume 0,.store ⟨"3",3⟩,.event 0 0,.serve 0,.resume 0]).any (fun s => decide
            (Quiet s ∧ s.docs = [⟨"3",3⟩,⟨"2",2⟩,⟨"1",1⟩])) = true :=
    Run.exists_of_exec (by decide)
  obtain ⟨s,paging,quiet,all⟩ := Run.exists_of_exec computed
  exact ⟨before,entered,s,doc,streaming,started,paging,all,
    live_after_paging (by unfold Descending; decide) (by decide) streaming idle shown started
      paging quiet⟩

/-- The third message is stored while the query for the second one is on its way back:
its event starts no query of its own, and no other event follows. -/
theorem live_of_lost_event : ∃ before entered s last,
    Run Screen.step anyStep {stored := [⟨"1",1⟩]} [.stream,.scroll,.serve 0] before ∧
      before.isLoading = false ∧ last ∈ before.lastMessage ∧
      before.step (.resume 0) = some entered ∧
      Run Screen.step anyStep entered [.event 0 0,.store ⟨"2",2⟩,.event 0 0,.serve 0,
        .store ⟨"3",3⟩,.event 0 0,.resume 0] s ∧
      Quiet s ∧ s.docs = [⟨"2",2⟩,⟨"1",1⟩] ∧ ¬ Live last.doc s := by
  obtain ⟨before,streaming,idle,last,shown,entered,started,computed⟩ :
      ∃ before, Run Screen.step anyStep {stored := [⟨"1",1⟩]} [.stream,.scroll,.serve 0] before ∧
        before.isLoading = false ∧ ∃ last ∈ before.lastMessage,
        ∃ entered ∈ before.step (.resume 0),
        (exec Screen.step anyStep entered [.event 0 0,.store ⟨"2",2⟩,.event 0 0,.serve 0,
          .store ⟨"3",3⟩,.event 0 0,.resume 0]).any (fun s => decide
            (Quiet s ∧ s.docs = [⟨"2",2⟩,⟨"1",1⟩] ∧ s.docs.head? ≠ s.stored.head?)) = true :=
    Run.exists_of_exec (by decide)
  obtain ⟨s,paging,quiet,docs,missing⟩ := Run.exists_of_exec computed
  exact ⟨before,entered,s,last,streaming,idle,shown,started,paging,quiet,docs,
    fun live => missing live.newest⟩

end Neuro.LiveMessages
