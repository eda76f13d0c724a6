import Neuro.Lib.Pool
import Neuro.Lib.Run

/-! The further photos of a registration: `loadAssets` refills the tiles of the screen, one
thumbnail after the other, and Next takes the last tile off and hands the others over. -/
namespace Neuro.RegistrationPhotos
open Neuro.Lib

structure File where
  path : String
  deriving DecidableEq, Repr

structure Asset where
  identifier : String
  name : Option String
  deriving DecidableEq, Repr

def writeToFile (tempPath name : String) : File := ⟨tempPath ++ "/" ++ name⟩

/-- What `loadAssets` does per asset; `name!` throws on an asset without one. -/
def Asset.file (tempPath : String) (element : Asset) : Option File :=
  element.name.map (writeToFile tempPath)

def placeholder : File := ⟨""⟩

theorem file_ne_placeholder {tempPath : String} {element : Asset} {file : File}
    (written : element.file tempPath = some file) : file ≠ placeholder := by
  obtain ⟨name,_,rfl⟩ := Option.map_eq_some_iff.mp written
  intro same
  have length := congrArg (fun file => file.path.length) same
  simp [writeToFile,placeholder] at length

/-- A pick whose thumbnails are being written: what the picker returned, and what of it is still
to be written. -/
structure Pick where
  images : List Asset
  rest : List Asset
  deriving DecidableEq, Repr

/-- What Next has handed over, or that it has thrown, beside the latest completed pick. -/
structure Next where
  moreimages : List File
  threw : Bool
  picked : List Asset
  deriving DecidableEq, Repr

/-- `opened` counts the pickers that have not returned yet. `completed` and `nexts` are
histories. -/
structure AboutMeMorePhoto where
  imageList : List File := [placeholder]
  images : List Asset := []
  opened : Nat := 0
  writing : List Pick := []
  moreimages : List File := []
  completed : List Asset := []
  nexts : List Next := []
  deriving DecidableEq, Repr

inductive Action
  | loadAssets
  /-- A cancelled or failed pick returns no assets. -/
  | picked (resultList : List Asset)
  /-- The next thumbnail of a pick is written, or something throws. -/
  | written (pick : Nat) (success : Bool)
  | next
  deriving DecidableEq, Repr

namespace AboutMeMorePhoto
variable (tempPath : String) (s : AboutMeMorePhoto)

def complete (images : List Asset) : AboutMeMorePhoto :=
  {s with imageList := s.imageList ++ [placeholder], completed := images}

def picked (resultList : List Asset) : AboutMeMorePhoto :=
  let cleared := {s with opened := s.opened - 1, images := resultList, imageList := []}
  if resultList = [] then cleared.complete []
  else {cleared with writing := s.writing ++ [⟨resultList,resultList⟩]}

def written (i : Nat) (pick : Pick) (file : File) : AboutMeMorePhoto :=
  let added := {s with imageList := s.imageList ++ [file]}
  if pick.rest.tail = [] then
    {added with writing := s.writing.eraseIdx i}.complete pick.images
  else {added with writing := s.writing.set i {pick with rest := pick.rest.tail}}

def thrown (i : Nat) : AboutMeMorePhoto := {s with writing := s.writing.eraseIdx i}

/-- `removeLast` throws on an empty list. -/
def next : AboutMeMorePhoto :=
  if s.imageList = [] then {s with nexts := s.nexts ++ [⟨s.moreimages,true,s.completed⟩]}
  else {s with
    imageList := s.imageList.dropLast
    moreimages := s.imageList.dropLast
    nexts := s.nexts ++ [⟨s.imageList.dropLast,false,s.completed⟩]}

def step (s : AboutMeMorePhoto) : Action → Option AboutMeMorePhoto
  | .loadAssets => if placeholder ∈ s.imageList then some {s with opened := s.opened + 1} else none
  | .picked resultList => if s.opened = 0 then none else some (s.picked resultList)
  | .written i success => s.writing[i]?.bind fun pick => pick.rest.head?.map fun element =>
    match if success then element.file tempPath else none with
    | none => s.thrown i
    | some file => s.written i pick file
  | .next => some s.next

end AboutMeMorePhoto

/-- Next does not throw and hands over the files of the latest completed pick. -/
def Next.Right (tempPath : String) (n : Next) : Prop :=
  n.threw = false ∧ n.moreimages.map some = n.picked.map (Asset.file tempPath)

/-- A pick comes back when no other one is being written, and Next is pressed when none is and
the list ends in its placeholder: not twice after the same pick. -/
def Settled (s : AboutMeMorePhoto) : Action → Prop
  | .picked _ => s.writing = []
  | .next => s.writing = [] ∧ s.imageList.getLast? = some placeholder
  | .loadAssets | .written .. => True

instance (tempPath : String) (n : Next) : Decidable (n.Right tempPath) :=
  inferInstanceAs (Decidable (_ ∧ _))

instance : ∀ s a, Decidable (Settled s a)
  | _, .picked _ => inferInstanceAs (Decidable (_ = _))
  | _, .next => inferInstanceAs (Decidable (_ ∧ _))
  | _, .loadAssets | _, .written .. => inferInstanceAs (Decidable True)

def Shows (tempPath : String) (imageList : List File) (images : List Asset) : Prop :=
  imageList.map some = images.map (Asset.file tempPath)

/-- While no pick is being written, the list is that of the latest completed pick with its
placeholder, or has no placeholder; one pick at most is being written. -/
inductive Kept (tempPath : String) (s : AboutMeMorePhoto) : Prop
  | settled (none : s.writing = [])
      (tiles : ∀ files, s.imageList = files ++ [placeholder] → Shows tempPath files s.completed)
  | writing (done : List Asset) (pick : Pick) (only : s.writing = [pick])
      (rest : pick.rest ≠ []) (images : pick.images = done ++ pick.rest)
      (tiles : Shows tempPath s.imageList done)

section Step
variable {tempPath : String} {s t : AboutMeMorePhoto} {a : Action}

theorem Shows.no_placeholder {imageList : List File} {images : List Asset}
    (shows : Shows tempPath imageList images) : placeholder ∉ imageList := by
  intro member
  have listed : some placeholder ∈ images.map (Asset.file tempPath) :=
    shows ▸ List.mem_map_of_mem member
  obtain ⟨element,_,written⟩ := List.mem_map.mp listed
  exact file_ne_placeholder written rfl

theorem Shows.append {imageList : List File} {images : List Asset}
    (shows : Shows tempPath imageList images) {element : Asset} {file : File}
    (written : element.file tempPath = some file) :
    Shows tempPath (imageList ++ [file]) (images ++ [element]) := by
  rw [Shows] at shows
  simp only [Shows,List.map_append,shows,List.map_cons,List.map_nil,written]

theorem kept_step (kept : Kept tempPath s) (settled : Settled s a)
    (stepped : s.step tempPath a = some t) : Kept tempPath t := by
  cases a with
  | loadAssets =>
    obtain ⟨_,rfl⟩ : _ ∧ _ = t := by simpa [AboutMeMorePhoto.step] using stepped
    cases kept with
    | settled none tiles => exact .settled none tiles
    | writing done pick only rest images tiles => exact .writing done pick only rest images tiles
  | picked resultList =>
    obtain ⟨_,rfl⟩ : _ ∧ _ = t := by simpa [AboutMeMorePhoto.step] using stepped
    have free : s.writing = [] := settled
    unfold AboutMeMorePhoto.picked
    dsimp only
    split
    next empty =>
      refine .settled free fun files shown => ?_
      obtain rfl : files = [] := by simpa [AboutMeMorePhoto.complete] using shown.symm
      rfl
    next filled => exact .writing [] ⟨resultList,resultList⟩ (by simp [free]) filled rfl rfl
  | written i success =>
    obtain ⟨pick,found,advanced⟩ := Option.bind_eq_some_iff.mp stepped
    obtain ⟨element,next,rfl⟩ := Option.map_eq_some_iff.mp advanced
    cases kept with
    | settled none tiles => simp [none] at found
    | writing done own only rest images tiles =>
      rw [only] at found
      obtain ⟨rfl,rfl⟩ := Pool.found_singleton found
      obtain ⟨later,remaining⟩ := List.head?_eq_some_iff.mp next
      split
      next =>
        refine .settled (by simp [AboutMeMorePhoto.thrown,only]) fun files shown => ?_
        have listed : s.imageList = files ++ [placeholder] := shown
        exact absurd (by simp [listed]) tiles.no_placeholder
      next file written =>
        have file : element.file tempPath = some file := by
          split at written
          · exact written
          · contradiction
        have added := tiles.append file
        have consumed : own.images = (done ++ [element]) ++ later := by simp [images,remaining]
        unfold AboutMeMorePhoto.written
        dsimp only
        split
        next empty =>
          refine .settled (by simp [AboutMeMorePhoto.complete,only]) fun files shown => ?_
          obtain rfl := List.append_cancel_right shown
          obtain rfl : later = [] := by simpa [remaining] using empty
          simpa [AboutMeMorePhoto.complete,consumed] using added
        next more =>
          rw [remaining,List.tail_cons] at more ⊢
          exact .writing (done ++ [element]) {own with rest := later} (by simp [only]) more
            consumed added
  | next =>
    cases Option.some.inj stepped
    obtain ⟨free,last⟩ := settled
    cases kept with
    | writing done pick only => simp [only] at free
    | settled none tiles =>
      obtain ⟨files,shown⟩ := List.getLast?_eq_some_iff.mp last
      have hidden := (tiles files shown).no_placeholder
      refine .settled ?_ fun again listed => ?_
      · unfold AboutMeMorePhoto.next
        split <;> exact none
      · have dropped : s.next.imageList = files := by simp [AboutMeMorePhoto.next,shown]
        rw [dropped] at listed
        exact absurd (by simp [listed]) hidden

theorem right_step (kept : Kept tempPath s) (right : ∀ n ∈ s.nexts, n.Right tempPath)
    (settled : Settled s a) (stepped : s.step tempPath a = some t) :
    ∀ n ∈ t.nexts, n.Right tempPath := by
  cases a with
  | loadAssets =>
    obtain ⟨_,rfl⟩ : _ ∧ _ = t := by simpa [AboutMeMorePhoto.step] using stepped
    exact right
  | picked resultList =>
    obtain ⟨_,rfl⟩ : _ ∧ _ = t := by simpa [AboutMeMorePhoto.step] using stepped
    unfold AboutMeMorePhoto.picked
    dsimp only
    split <;> exact right
  | written i success =>
    obtain ⟨pick,_,advanced⟩ := Option.bind_eq_some_iff.mp stepped
    obtain ⟨element,_,rfl⟩ := Option.map_eq_some_iff.mp advanced
    split
    · exact right
    · unfold AboutMeMorePhoto.written
      dsimp only
      split <;> exact right
  | next =>
    cases Option.some.inj stepped
    obtain ⟨free,last⟩ := settled
    cases kept with
    | writing done pick only => simp [only] at free
    | settled none tiles =>
      obtain ⟨files,shown⟩ := List.getLast?_eq_some_iff.mp last
      have nonempty : s.imageList ≠ [] := by simp [shown]
      rw [AboutMeMorePhoto.next,if_neg nonempty]
      refine Pool.forall_append right ⟨rfl,?_⟩
      rw [shown,List.dropLast_concat]
      exact tiles files shown

end Step

theorem kept_start (tempPath : String) : Kept tempPath {} := by
  refine .settled rfl fun files shown => ?_
  obtain rfl : files = [] := by simpa using shown.symm
  rfl

/-- In every run in which Next is pressed once for each refill, and not during one, it hands over
the files of the latest completed pick. -/
theorem photos_handed_over {tempPath : String} {s : AboutMeMorePhoto} {actions : List Action}
    (run : Run (AboutMeMorePhoto.step tempPath) Settled {} actions s) :
    ∀ n ∈ s.nexts, n.Right tempPath := by
  have both := run.invariant (fun s => Kept tempPath s ∧ ∀ n ∈ s.nexts, n.Right tempPath)
    ⟨kept_start tempPath,by simp⟩ fun _ _ _ held settled stepped =>
      ⟨kept_step held.1 settled stepped,right_step held.1 held.2 settled stepped⟩
  exact both.2

def twoPhotos : List Action :=
  [.loadAssets,.picked [⟨"1",some "a.jpg"⟩,⟨"2",some "b.jpg"⟩],.written 0 true,.written 0 true,.next]

theorem photos_handed_over_two : ∃ s,
    Run (AboutMeMorePhoto.step "/tmp") Settled {} twoPhotos s ∧
      s.moreimages = [⟨"/tmp/a.jpg"⟩,⟨"/tmp/b.jpg"⟩] ∧ ∀ n ∈ s.nexts, n.Right "/tmp" := by
  have computed : ∃ s, Run (AboutMeMorePhoto.step "/tmp") Settled {} twoPhotos s ∧
      s.moreimages = [⟨"/tmp/a.jpg"⟩,⟨"/tmp/b.jpg"⟩] := Run.exists_of_exec (by decide)
  obtain ⟨s,run,both⟩ := computed
  exact ⟨s,run,both,photos_handed_over run⟩

/-- Two photos are picked and handed over; Next after coming back drops the second one. -/
theorem photo_dropped : ¬ ∀ (tempPath : String) (actions : List Action) (s : AboutMeMorePhoto),
    Run (AboutMeMorePhoto.step tempPath) anyStep {} actions s →
      ∀ n ∈ s.nexts, n.Right tempPath := by
  intro claimed
  have computed : ∃ s, Run (AboutMeMorePhoto.step "/tmp") anyStep {} (twoPhotos ++ [.next]) s ∧
      s.moreimages = [⟨"/tmp/a.jpg"⟩] ∧ ∃ n ∈ s.nexts, ¬ n.Right "/tmp" :=
    Run.exists_of_exec (by decide)
  obtain ⟨s,run,_,n,member,wrong⟩ := computed
  exact wrong (claimed "/tmp" _ s run n member)

end Neuro.RegistrationPhotos
