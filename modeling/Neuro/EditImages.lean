import Neuro.RegistrationPhotos

/-! The images of the edit screen: one list of the profile holds the urls from the server, the
files picked since and the placeholder at its end. -/
namespace Neuro.EditImages
open Neuro.Lib
open RegistrationPhotos (File Asset Pick)

/-- An element of `more_image`; the placeholder is the empty url. -/
inductive Image
  | url (text : String)
  | file (file : File)
  deriving DecidableEq, Repr

def placeholder : Image := .url ""

/-- `element is File`. -/
def Image.newFile : Image → Option File
  | .file picked => some picked
  | .url _ => none

/-- What the screen shows stands for: the urls kept, those deleted and the photos selected. -/
structure Album where
  urls : List String
  deleted : List String := []
  selected : List Asset := []
  deriving DecidableEq, Repr

/-- `moreImage` belongs to the profile, `images` and `oldImages` to the open screen. -/
structure EditScreen where
  moreImage : List Image
  mounted : Bool := true
  images : List Asset := []
  oldImages : List String := []
  opened : Nat := 0
  writing : List Pick := []
  album : Album
  deriving DecidableEq, Repr

inductive Action
  | initState
  | leave
  | loadAssets
  | picked (resultList : List Asset)
  | written (pick : Nat) (success : Bool)
  | delete (index : Nat)
  deriving DecidableEq, Repr

namespace Album
variable (tempPath : String) (album : Album)

def picked (resultList : List Asset) : Album := {album with selected := resultList}

def deleteUrl (index : Nat) (url : String) : Album :=
  {album with urls := album.urls.eraseIdx index, deleted := album.deleted ++ [url]}

def deleteFile (file : File) : Album :=
  {album with selected := album.selected.eraseP fun element => element.file tempPath = some file}

def files : List (Option File) := album.selected.map (Asset.file tempPath)

end Album

namespace EditScreen
variable (tempPath : String) (s : EditScreen)

def start (urls : List String) : EditScreen where
  moreImage := urls.map .url ++ [placeholder]
  album := {urls := urls}

def initState : EditScreen := {s with
  moreImage := s.moreImage ++ [placeholder]
  mounted := true
  images := []
  oldImages := []}

/-- The pickers that return later find the widget removed. -/
def leave : EditScreen := {s with mounted := false, opened := 0}

/-- `removeLast` throws on an empty list. -/
def picked (resultList : List Asset) : EditScreen :=
  let returned := {s with
    opened := s.opened - 1
    images := resultList
    album := s.album.picked resultList}
  if s.moreImage = [] then returned
  else if resultList = [] then {returned with moreImage := s.moreImage.dropLast ++ [placeholder]}
  else {returned with
    moreImage := s.moreImage.dropLast
    writing := s.writing ++ [⟨resultList,resultList⟩]}

/-- `contains` compares a new `File` object with those of the list, and finds none. -/
def written (i : Nat) (pick : Pick) (file : File) : EditScreen :=
  if pick.rest.tail = [] then {s with
    moreImage := s.moreImage ++ [.file file,placeholder]
    writing := s.writing.eraseIdx i}
  else {s with
    moreImage := s.moreImage ++ [.file file]
    writing := s.writing.set i {pick with rest := pick.rest.tail}}

def thrown (i : Nat) : EditScreen := {s with writing := s.writing.eraseIdx i}

def delete (index : Nat) : Image → EditScreen
  | .file file => {s with
    moreImage := s.moreImage.eraseIdx index
    album := s.album.deleteFile tempPath file}
  | .url text => {s with
    moreImage := s.moreImage.eraseIdx index
    oldImages := s.oldImages ++ [text]
    album := s.album.deleteUrl index text}

def step (s : EditScreen) : Action → Option EditScreen
  | .initState => if s.mounted then none else some s.initState
  | .leave => if s.mounted then some s.leave else none
  | .loadAssets =>
    if s.mounted && s.moreImage.contains placeholder then some {s with opened := s.opened + 1}
    else none
  | .picked resultList => if s.opened = 0 then none else some (s.picked resultList)
  | .written i success => s.writing[i]?.bind fun pick => pick.rest.head?.map fun element =>
    match if success then element.file tempPath else none with
    | none => s.thrown i
    | some file => s.written i pick file
  | .delete index => if s.mounted then (s.moreImage[index]?.filter (· ≠ placeholder)).map
      (s.delete tempPath index) else none

def sendData : List File × String :=
  (s.moreImage.filterMap Image.newFile,",".intercalate s.oldImages)

end EditScreen

/-- The tiles stand for the album, and Save sends its photos and what was deleted from it. -/
structure Faithful (tempPath : String) (s : EditScreen) : Prop where
  tiles : ∃ files : List File, s.album.files tempPath = files.map some ∧ files.Nodup ∧
    s.moreImage = s.album.urls.map .url ++ files.map .file ++ [placeholder]
  sent : s.mounted = true → s.album.files tempPath = s.sendData.1.map some ∧
    s.sendData.2 = ",".intercalate s.album.deleted

/-- The profile is edited on one screen, a pick comes back when no file is listed and no other pick
is being written, its assets have distinct names, and their thumbnails can be written. -/
def Once (s : EditScreen) : Action → Prop
  | .initState => False
  | .picked resultList => s.writing = [] ∧ (∀ image ∈ s.moreImage, image.newFile = none) ∧
    (∀ element ∈ resultList, element.name ≠ none) ∧ (resultList.map Asset.name).Nodup
  | .written _ success => success = true
  | .leave | .loadAssets | .delete _ => True

theorem writeToFile_inj {tempPath left right : String}
    (same : RegistrationPhotos.writeToFile tempPath left =
      RegistrationPhotos.writeToFile tempPath right) : left = right := by
  have texts := congrArg (fun file => file.path.toList) same
  apply String.toList_inj.mp
  simpa [RegistrationPhotos.writeToFile] using texts

theorem exists_files (tempPath : String) {images : List Asset}
    (named : ∀ element ∈ images, element.name ≠ none) (distinct : (images.map Asset.name).Nodup) :
    ∃ files : List File, images.map (Asset.file tempPath) = files.map some ∧ files.Nodup := by
  have names : ∀ element ∈ images, ∃ name, element.name = some name := fun element member =>
    Option.ne_none_iff_exists'.mp (named element member)
  induction images with
  | nil => exact ⟨[],rfl,.nil⟩
  | cons element rest ih =>
    obtain ⟨name,own⟩ := names element (by simp)
    obtain ⟨fresh,distinct⟩ := List.nodup_cons.mp distinct
    obtain ⟨files,written,nodup⟩ := ih (fun other member => named other (by simp [member])) distinct
      fun other member => names other (by simp [member])
    refine ⟨RegistrationPhotos.writeToFile tempPath name :: files,?_,List.nodup_cons.mpr ⟨?_,nodup⟩⟩
    · simp [Asset.file,own,written]
    · intro again
      have listed : some (RegistrationPhotos.writeToFile tempPath name) ∈
          rest.map (Asset.file tempPath) := written ▸ List.mem_map_of_mem again
      obtain ⟨other,member,same⟩ := List.mem_map.mp listed
      obtain ⟨otherName,has,same⟩ := Option.map_eq_some_iff.mp same
      obtain rfl := writeToFile_inj same
      exact fresh (List.mem_map.mpr ⟨other,member,has.trans own.symm⟩)

theorem erase_getElem {files : List File} (distinct : files.Nodup) {j : Nat} {file : File}
    (found : files[j]? = some file) : files.erase file = files.eraseIdx j := by
  obtain ⟨bound,rfl⟩ := List.getElem?_eq_some_iff.mp found
  exact List.erase_eq_eraseIdx_of_idxOf (distinct.idxOf_getElem j bound)

def tiles (urls : List String) (shown : List File) (rest : List Image) : List Image :=
  urls.map .url ++ (shown.map .file ++ rest)

def trailing (writing : List Pick) : List Image := if writing = [] then [placeholder] else []

inductive Pending (tempPath : String) : List Pick → List File → Prop
  | settled : Pending tempPath [] []
  | writing (pick : Pick) (later : List File) (more : later ≠ [])
      (rest : pick.rest.map (Asset.file tempPath) = later.map some) :
      Pending tempPath [pick] later

structure Kept (tempPath : String) (s : EditScreen) (shown later : List File) : Prop where
  selected : s.album.files tempPath = (shown ++ later).map some
  distinct : (shown ++ later).Nodup
  listed : s.moreImage = tiles s.album.urls shown (trailing s.writing)
  pending : Pending tempPath s.writing later
  deleted : s.mounted = true → s.oldImages = s.album.deleted

theorem Pending.named {tempPath : String} {writing : List Pick} {later : List File}
    (pending : Pending tempPath writing later) {i : Nat} {pick : Pick} {element : Asset}
    (found : writing[i]? = some pick) (next : pick.rest.head? = some element) :
    ∃ file, element.file tempPath = some file := by
  cases pending with
  | settled => simp at found
  | writing own later more rest =>
    obtain rfl := List.mem_singleton.mp (List.mem_of_getElem? found)
    have listed : element.file tempPath ∈ later.map some :=
      rest ▸ List.mem_map_of_mem (List.mem_of_mem_head? next)
    obtain ⟨file,_,same⟩ := List.mem_map.mp listed
    exact ⟨file,same.symm⟩

theorem tile_cases {urls : List String} {shown : List File} {writing : List Pick} {i : Nat}
    {image : Image} (found : (tiles urls shown (trailing writing))[i]? = some image)
    (real : image ≠ placeholder) :
    (∃ text, image = .url text ∧ i < urls.length) ∨
      ∃ j file, image = .file file ∧ i = urls.length + j ∧ shown[j]? = some file := by
  unfold tiles at found
  rcases Nat.lt_or_ge i urls.length with early | late
  · rw [List.getElem?_append_left (by simpa using early),List.getElem?_map] at found
    obtain ⟨text,_,rfl⟩ := Option.map_eq_some_iff.mp found
    exact .inl ⟨text,rfl,early⟩
  · rw [List.getElem?_append_right (by simpa using late),List.length_map] at found
    right
    rcases Nat.lt_or_ge (i - urls.length) shown.length with inside | beyond
    · rw [List.getElem?_append_left (by simpa using inside),List.getElem?_map] at found
      obtain ⟨file,here,rfl⟩ := Option.map_eq_some_iff.mp found
      exact ⟨i - urls.length,file,rfl,by omega,here⟩
    · rw [List.getElem?_append_right (by simpa using beyond)] at found
      have last := List.mem_of_getElem? found
      unfold trailing at last
      split at last <;> simp at last
      exact absurd last real

section Delete
variable {tempPath : String} {s : EditScreen} {shown later : List File} {i j : Nat}

theorem kept_deleteUrl (kept : Kept tempPath s shown later) {text : String}
    (early : i < s.album.urls.length) : Kept tempPath (s.delete tempPath i (.url text)) shown later := by
  refine ⟨kept.selected,kept.distinct,?_,kept.pending,fun mounted => ?_⟩
  · simp only [EditScreen.delete,Album.deleteUrl,kept.listed,tiles]
    rw [List.eraseIdx_append_of_lt_length (by simpa using early),List.eraseIdx_map]
  · simp only [EditScreen.delete,Album.deleteUrl,kept.deleted mounted]

theorem kept_deleteFile (kept : Kept tempPath s shown later) {file : File}
    (found : shown[j]? = some file) :
    Kept tempPath (s.delete tempPath (s.album.urls.length + j) (.file file)) (shown.eraseIdx j)
      later := by
  have member : file ∈ shown := List.mem_of_getElem? found
  have erased : (shown ++ later).erase file = shown.eraseIdx j ++ later := by
    rw [List.erase_append_left _ member]
    exact congrArg (· ++ later) (erase_getElem (List.nodup_append.mp kept.distinct).1 found)
  refine ⟨?_,erased ▸ kept.distinct.erase file,?_,kept.pending,kept.deleted⟩
  · have selected := kept.selected
    unfold Album.files at selected
    have left : (s.delete tempPath (s.album.urls.length + j) (.file file)).album.files tempPath =
        ((s.album.selected.map (Asset.file tempPath)).eraseP fun written => written = some file) := by
      rw [List.eraseP_map]
      rfl
    have right : ((shown ++ later).map some).eraseP (fun written => written = some file) =
        ((shown ++ later).erase file).map some := by
      rw [List.eraseP_map,List.erase_eq_eraseP']
      congr 2
      funext other
      exact Bool.eq_iff_iff.mpr (by simp)
    rw [left,selected,right,erased]
  · obtain ⟨bound,_⟩ := List.getElem?_eq_some_iff.mp found
    simp only [EditScreen.delete,Album.deleteFile,kept.listed,tiles]
    rw [List.eraseIdx_append_of_length_le (by simp),List.length_map,Nat.add_sub_cancel_left,
      List.eraseIdx_append_of_lt_length (by simpa using bound),List.eraseIdx_map]

end Delete

section Step
variable {tempPath : String} {s t : EditScreen} {a : Action} {shown later : List File}

theorem kept_picked (kept : Kept tempPath s shown later) {resultList : List Asset}
    (once : Once s (.picked resultList)) :
    ∃ later, Kept tempPath (s.picked resultList) [] later := by
  obtain ⟨settled,unlisted,named,distinct⟩ := once
  obtain ⟨files,written,nodup⟩ := exists_files tempPath named distinct
  have none : shown = [] := by
    cases shown with
    | nil => rfl
    | cons file rest => simpa [Image.newFile] using unlisted (.file file) (by simp [kept.listed,tiles])
  subst none
  have ending : s.moreImage = s.album.urls.map .url ++ [placeholder] := by
    simpa [tiles,trailing,settled] using kept.listed
  have nonempty : s.moreImage ≠ [] := by simp [ending]
  refine ⟨files,?_⟩
  unfold EditScreen.picked
  simp only [if_neg nonempty]
  split
  next empty =>
    subst empty
    obtain rfl : files = [] := by simpa using written.symm
    refine ⟨rfl,.nil,?_,?_,kept.deleted⟩
    · simp [Album.picked,tiles,trailing,settled,ending]
    · exact settled ▸ .settled
  next filled =>
    have more : files ≠ [] := by
      rintro rfl
      exact filled (by simpa using written)
    refine ⟨written,nodup,?_,?_,kept.deleted⟩
    · simp [Album.picked,tiles,trailing,settled,ending]
    · simpa [settled] using .writing ⟨resultList,resultList⟩ files more written

theorem kept_written (kept : Kept tempPath s shown later) {i : Nat} {pick : Pick}
    {element : Asset} {file : File} (found : s.writing[i]? = some pick)
    (next : pick.rest.head? = some element) (written : element.file tempPath = some file) :
    ∃ shown later, Kept tempPath (s.written i pick file) shown later := by
  obtain ⟨selected,distinct,listed,pending,deleted⟩ := kept
  generalize only : s.writing = writing at found pending listed
  cases pending with
  | settled => simp at found
  | writing own later more rest =>
    obtain ⟨rfl,rfl⟩ := Pool.found_singleton found
    obtain ⟨assets,remaining⟩ := List.head?_eq_some_iff.mp next
    obtain ⟨files,rfl,tail⟩ : ∃ files, later = file :: files ∧
        assets.map (Asset.file tempPath) = files.map some := by
      cases later with
      | nil => exact absurd rfl more
      | cons first files =>
        rw [remaining,List.map_cons,List.map_cons,written] at rest
        obtain ⟨same,tail⟩ := List.cons_eq_cons.mp rest
        exact ⟨files,by rw [Option.some.inj same],tail⟩
    rw [List.append_cons] at selected distinct
    refine ⟨shown ++ [file],files,?_⟩
    unfold EditScreen.written
    split
    next empty =>
      obtain rfl : assets = [] := by simpa [remaining] using empty
      obtain rfl : files = [] := by simpa using tail.symm
      refine ⟨selected,distinct,?_,?_,deleted⟩
      · simp [listed,tiles,trailing,only]
      · simpa [only] using .settled
    next filled =>
      rw [remaining,List.tail_cons] at filled ⊢
      refine ⟨selected,distinct,?_,?_,deleted⟩
      · simp [listed,tiles,trailing,only]
      · simp only [only,List.set_cons_zero]
        refine .writing {own with rest := assets} files ?_ tail
        rintro rfl
        exact filled (by simpa using tail)

theorem kept_step (kept : ∃ shown later, Kept tempPath s shown later) (once : Once s a)
    (stepped : s.step tempPath a = some t) : ∃ shown later, Kept tempPath t shown later := by
  obtain ⟨shown,later,kept⟩ := kept
  cases a with
  | initState => exact once.elim
  | leave =>
    obtain ⟨_,rfl⟩ : _ ∧ _ = t := by simpa [EditScreen.step] using stepped
    exact ⟨shown,later,kept.selected,kept.distinct,kept.listed,kept.pending,by simp [EditScreen.leave]⟩
  | loadAssets =>
    obtain ⟨_,rfl⟩ : _ ∧ _ = t := by simpa [EditScreen.step] using stepped
    exact ⟨shown,later,kept.selected,kept.distinct,kept.listed,kept.pending,kept.deleted⟩
  | picked resultList =>
    obtain ⟨_,rfl⟩ : _ ∧ _ = t := by simpa [EditScreen.step] using stepped
    exact ⟨[],kept_picked kept once⟩
  | written i success =>
    obtain ⟨pick,found,advanced⟩ := Option.bind_eq_some_iff.mp stepped
    obtain ⟨element,next,rfl⟩ := Option.map_eq_some_iff.mp advanced
    obtain rfl : success = true := once
    obtain ⟨file,written⟩ := kept.pending.named found next
    simp only [if_true,written]
    exact kept_written kept found next written
  | delete index =>
    simp only [EditScreen.step] at stepped
    split at stepped
    next mounted =>
      obtain ⟨image,found,rfl⟩ := Option.map_eq_some_iff.mp stepped
      obtain ⟨found,real⟩ := Option.filter_eq_some_iff.mp found
      rw [kept.listed] at found
      rcases tile_cases found (by simpa using real) with ⟨text,rfl,early⟩ | ⟨j,file,rfl,rfl,here⟩
      · exact ⟨shown,later,kept_deleteUrl kept early⟩
      · exact ⟨shown.eraseIdx j,later,kept_deleteFile kept here⟩
    next => contradiction

end Step

theorem kept_start (tempPath : String) (urls : List String) :
    Kept tempPath (.start urls) [] [] :=
  ⟨rfl,.nil,by simp [EditScreen.start,tiles,trailing],.settled,fun _ => rfl⟩

theorem files_tiles (urls : List String) (shown : List File) (writing : List Pick) :
    (tiles urls shown (trailing writing)).filterMap Image.newFile = shown := by
  have urlFiles : (urls.map Image.url).filterMap Image.newFile = [] := by
    simp [List.filterMap_map,Function.comp_def,Image.newFile]
  have rest : (trailing writing).filterMap Image.newFile = [] := by
    unfold trailing
    split <;> rfl
  have files : (shown.map Image.file).filterMap Image.newFile = shown := by
    rw [List.filterMap_map]
    exact List.filterMap_some (l := shown)
  rw [tiles,List.filterMap_append,List.filterMap_append,urlFiles,rest,files]
  simp

theorem faithful_of_kept {tempPath : String} {s : EditScreen} {shown later : List File}
    (kept : Kept tempPath s shown later) (settled : s.writing = []) : Faithful tempPath s := by
  obtain ⟨selected,distinct,listed,pending,deleted⟩ := kept
  obtain rfl : later = [] := by
    rw [settled] at pending
    cases pending
    rfl
  rw [List.append_nil] at selected distinct
  refine ⟨⟨shown,selected,distinct,?_⟩,fun mounted => ⟨?_,?_⟩⟩
  · simp [listed,tiles,trailing,settled]
  · rw [EditScreen.sendData,listed,files_tiles,selected]
  · rw [EditScreen.sendData,deleted mounted]

instance : ∀ s a, Decidable (Once s a)
  | _, .initState => inferInstanceAs (Decidable False)
  | _, .picked _ => inferInstanceAs (Decidable (_ ∧ (∀ _ ∈ _, _) ∧ (∀ _ ∈ _, _) ∧ _))
  | _, .written .. => inferInstanceAs (Decidable (_ = _))
  | _, .leave | _, .loadAssets | _, .delete _ => inferInstanceAs (Decidable True)

/-- In every run in which the profile is edited on one screen and a pick finds no file listed,
whenever no thumbnail is being written the tiles are those of the album and Save sends what was
picked and what was deleted. -/
theorem images_faithful {tempPath : String} {urls : List String} {s : EditScreen}
    {actions : List Action}
    (run : Run (EditScreen.step tempPath) Once (.start urls) actions s) (settled : s.writing = []) :
    Faithful tempPath s := by
  have kept := run.invariant (fun s => ∃ shown later, Kept tempPath s shown later)
    ⟨[],[],kept_start tempPath urls⟩ fun _ _ _ => kept_step
  obtain ⟨shown,later,kept⟩ := kept
  exact faithful_of_kept kept settled

def pickedAnn : List Action :=
  [.loadAssets,.picked [⟨"1",some "ann.jpg"⟩],.written 0 true]

theorem images_faithful_deleted : ∃ s,
    Run (EditScreen.step "/tmp") Once (.start ["u.png","v.png"]) (.delete 0 :: pickedAnn) s ∧
      s.sendData = ([⟨"/tmp/ann.jpg"⟩],"u.png") ∧ Faithful "/tmp" s := by
  have computed : ∃ s,
      Run (EditScreen.step "/tmp") Once (.start ["u.png","v.png"]) (.delete 0 :: pickedAnn) s ∧
        s.sendData = ([⟨"/tmp/ann.jpg"⟩],"u.png") ∧ s.writing = [] :=
    Run.exists_of_exec (by decide)
  obtain ⟨s,run,sent,settled⟩ := computed
  exact ⟨s,run,sent,images_faithful run settled⟩

/-- The photo picked first is preselected when a second one is picked, and is then listed and sent
twice. -/
theorem photo_repeated : ¬ ∀ (tempPath : String) (urls : List String) (actions : List Action)
    (s : EditScreen), Run (EditScreen.step tempPath) anyStep (.start urls) actions s →
      s.writing = [] → Faithful tempPath s := by
  intro claimed
  have computed : ∃ s, Run (EditScreen.step "/tmp") anyStep (.start [])
      (pickedAnn ++ [.loadAssets,.picked [⟨"1",some "ann.jpg"⟩,⟨"2",some "ben.jpg"⟩],
        .written 0 true,.written 0 true]) s ∧ s.writing = [] ∧ s.mounted = true ∧
      s.sendData.1 = [⟨"/tmp/ann.jpg"⟩,⟨"/tmp/ann.jpg"⟩,⟨"/tmp/ben.jpg"⟩] ∧
      s.album.files "/tmp" ≠ s.sendData.1.map some :=
    Run.exists_of_exec (by decide)
  obtain ⟨s,run,settled,mounted,_,repeated⟩ := computed
  exact repeated ((claimed "/tmp" [] _ s run settled).sent mounted).1

end Neuro.EditImages
