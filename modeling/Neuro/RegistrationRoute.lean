import Mathlib
import Neuro.Registration

/-! Which answers a registration is made of. The pages have an order, so those on the route have
been answered once each; what was answered on another route stays in the register as well. -/
namespace Neuro.Registration
open Neuro.Lib Separated FeedsFilter RegistrationPhotos
open TagAdding (HashTagController)

def Page.depth : Page → Nat
  | .aboutMeEmail => 1
  | .aboutMeName => 2
  | .aboutMeProfilePicture => 3
  | .aboutMeMorePhoto => 4
  | .aboutMeAge => 5
  | .aboutMeAbout => 6
  | .aboutMeYourIdentify => 7
  | .aboutMeYourIdentifySpecify | .aboutMeChooseMode => 8
  | .aboutNeurologicalStatus => 9
  | .aboutMeNeurological => 10
  | .aboutMePersonality => 11

def Answer.asked : Answer → Page
  | .email _ => .aboutMeEmail
  | .name _ => .aboutMeName
  | .profilePicture _ => .aboutMeProfilePicture
  | .morePhoto _ => .aboutMeMorePhoto
  | .age _ => .aboutMeAge
  | .about _ => .aboutMeAbout
  | .yourIdentify _ => .aboutMeYourIdentify
  | .specify _ => .aboutMeYourIdentifySpecify
  | .chooseMode _ => .aboutMeChooseMode
  | .status _ => .aboutNeurologicalStatus
  | .neurological _ => .aboutMeNeurological

def Answer.depth (a : Answer) : Nat := a.asked.depth

/-- `b` may come after `a` on one route. -/
def Before (a b : Answer) : Prop :=
  a.depth < b.depth ∧ ∀ gender text, a = .yourIdentify gender → b = .specify text → gender = "OTHER"

section Route
variable (first : Page)

/-- The page that a path of answers leads to. -/
def current (path : List Answer) : Page := (path.head?.map Answer.opens).getD first

def Linked : List Answer → Prop
  | [] => True
  | a :: below => a.asked = current first below ∧ Linked below

variable {first} {path : List Answer} {a b : Answer} {k : Nat}

theorem depth_opens (a : Answer) : a.depth < a.opens.depth := by
  cases a with
  | yourIdentify | status =>
    simp only [Answer.opens]
    split <;> simp [Answer.depth,Answer.asked,Page.depth]
  | email | name | profilePicture | morePhoto | age | about | specify | chooseMode
  | neurological => simp [Answer.depth,Answer.asked,Answer.opens,Page.depth]

/-- Only the page of the tags is passed over by an answer of a smaller depth. -/
theorem opens_depth_le (shallow : a.depth < k) (bound : k ≤ 9) : a.opens.depth ≤ k := by
  cases a with
  | yourIdentify =>
    simp only [Answer.opens]
    split <;> exact shallow
  | status => exact absurd (lt_of_lt_of_le shallow bound) (lt_irrefl _)
  | neurological =>
    exact absurd (lt_of_lt_of_le shallow bound) (by simp [Answer.depth,Answer.asked,Page.depth])
  | email | name | profilePicture | morePhoto | age | about | specify | chooseMode => exact shallow

theorem depth_of_mem (linked : Linked first path) (member : b ∈ path) :
    b.depth < (current first path).depth := by
  induction path with
  | nil => exact absurd member List.not_mem_nil
  | cons a below ih =>
    obtain ⟨asked,linked⟩ := linked
    rcases List.mem_cons.mp member with rfl | earlier
    · exact depth_opens b
    · calc b.depth < (current first below).depth := ih linked earlier
        _ = a.depth := by rw [Answer.depth,asked]
        _ < (current first (a :: below)).depth := depth_opens a

theorem opens_specify (opened : a.opens = .aboutMeYourIdentifySpecify) :
    a = .yourIdentify "OTHER" := by
  cases a with
  | yourIdentify gender =>
    by_cases other : gender = "OTHER"
    · rw [other]
    · simp [Answer.opens,other] at opened
  | status chosen =>
    simp only [Answer.opens] at opened
    split at opened <;> contradiction
  | email | name | profilePicture | morePhoto | age | about | specify | chooseMode
  | neurological => contradiction

theorem opens_chooseMode (opened : a.opens = .aboutMeChooseMode) :
    ∃ gender ≠ "OTHER", a = .yourIdentify gender := by
  cases a with
  | yourIdentify gender =>
    refine ⟨gender,fun other => ?_,rfl⟩
    simp [Answer.opens,other] at opened
  | status chosen =>
    simp only [Answer.opens] at opened
    split at opened <;> contradiction
  | email | name | profilePicture | morePhoto | age | about | specify | chooseMode
  | neurological => contradiction

theorem before_of_linked (linked : Linked first (a :: path)) : ∀ b ∈ path, Before b a := by
  obtain ⟨asked,linked⟩ := linked
  intro b member
  have shallow : b.depth < a.depth := by
    rw [Answer.depth,Answer.depth,asked]
    exact depth_of_mem linked member
  refine ⟨shallow,?_⟩
  rintro gender text rfl rfl
  cases path with
  | nil => exact absurd member List.not_mem_nil
  | cons c below =>
    obtain rfl : c = .yourIdentify "OTHER" := opens_specify asked.symm
    rcases List.mem_cons.mp member with same | earlier
    · exact Answer.yourIdentify.inj same
    · have deeper := depth_of_mem linked.2 earlier
      rw [← linked.1] at deeper
      exact absurd deeper (lt_irrefl _)

theorem first_le (linked : Linked first path) : first.depth ≤ (current first path).depth := by
  induction path with
  | nil => exact le_refl _
  | cons a below ih =>
    calc first.depth ≤ (current first below).depth := ih linked.2
      _ = a.depth := by rw [Answer.depth,linked.1]
      _ ≤ (current first (a :: below)).depth := (depth_opens a).le

/-- Every depth up to that of the status, from the first page on, has been asked on the way. -/
theorem asked_on (linked : Linked first path) (entry : first.depth ≤ k) (bound : k ≤ 9)
    (deeper : k < (current first path).depth) : ∃ a ∈ path, a.depth = k := by
  induction path with
  | nil => exact absurd deeper (not_lt.mpr entry)
  | cons a below ih =>
    obtain ⟨asked,linked⟩ := linked
    rcases lt_trichotomy a.depth k with shallow | same | deep
    · exact absurd deeper (not_lt.mpr (opens_depth_le shallow bound))
    · exact ⟨a,List.mem_cons_self,same⟩
    · rw [Answer.depth,asked] at deep
      obtain ⟨b,member,same⟩ := ih linked deep
      exact ⟨b,List.mem_cons_of_mem _ member,same⟩

theorem identified_of_mode (linked : Linked first path) (entry : first.depth ≤ 2) {mode : String}
    (member : .chooseMode mode ∈ path) : ∃ gender ≠ "OTHER", .yourIdentify gender ∈ path := by
  induction path with
  | nil => exact absurd member List.not_mem_nil
  | cons a below ih =>
    obtain ⟨asked,linked⟩ := linked
    rcases List.mem_cons.mp member with rfl | earlier
    · cases below with
      | nil =>
        have same : Page.aboutMeChooseMode = first := asked
        rw [← same] at entry
        exact absurd entry (by decide)
      | cons c rest =>
        obtain ⟨gender,other,rfl⟩ := opens_chooseMode asked.symm
        exact ⟨gender,other,by simp⟩
    · obtain ⟨gender,other,found⟩ := ih linked earlier
      exact ⟨gender,other,List.mem_cons_of_mem _ found⟩

end Route

/-! What the answers put into the fields. -/

namespace Answer

def emailed : Answer → Option String
  | .email text => some text
  | _ => none

def named : Answer → Option String
  | .name text => some text
  | _ => none

def pictured : Answer → Option (Option File)
  | .profilePicture image => some (some image)
  | _ => none

def photographed : Answer → Option (List File)
  | .morePhoto imageList => some imageList
  | _ => none

def dated : Answer → Option String
  | .age dob => some dob
  | _ => none

def described : Answer → Option String
  | .about text => some text
  | _ => none

/-- Two pages put the gender in, the second only if something has been typed. -/
def gendered : Answer → Option String
  | .yourIdentify gender => some gender
  | .specify gender => if gender = "" then none else some gender
  | _ => none

def moded : Answer → Option String
  | .chooseMode mode => some mode
  | _ => none

def classified : Answer → Option String
  | .status chosen => some chosen
  | _ => none

def tagged : Answer → Option String
  | .neurological selectedlist => some (join ',' selectedlist)
  | _ => none

end Answer

/-- The fields that no answer is put into. -/
def beside (register base : Register) : Register := {base with
  latitude := register.latitude
  longitude := register.longitude
  address := register.address
  personality := register.personality}

/-- The register that the answers on the route alone would have filled in. -/
def Handed.filled (entered : Register) (h : Handed) : Register :=
  beside h.register (h.path.foldr Answer.write entered)

/-- How a register that is handed over has come about. -/
structure Sound (first : Page) (entered : Register) (h : Handed) : Prop where
  walk : Walk Before h.path h.log
  linked : Linked first h.path
  arrived : current first h.path = .aboutMePersonality
  reached : ∀ a ∈ h.log, first.depth ≤ a.depth
  written : h.register = beside h.register (h.log.foldr Answer.write entered)

/-- The field that is put in on the page of this depth, and nowhere else. -/
structure Field (k : Nat) (V : Type) where
  read : Register → V
  value : Answer → Option V
  puts : Puts Answer.write read value
  own : ∀ a, (value a).isSome = true ↔ a.depth = k

theorem puts_of_specify {V : Type} {read : Register → V} {value : Answer → Option V}
    (silent : ∀ gender, value (.specify gender) = none)
    (kept : ∀ gender (r : Register), read {r with gender := gender} = read r)
    (others : ∀ a r, (∀ gender, a ≠ .specify gender) →
      read (a.write r) = (value a).getD (read r)) : Puts Answer.write read value := by
  intro a r
  cases a with
  | specify gender =>
    rw [silent,Option.getD_none,Answer.write]
    split
    · rfl
    · exact kept gender r
  | email | name | profilePicture | morePhoto | age | about | yourIdentify | chooseMode | status
  | neurological => exact others _ r (by simp)

def emailField : Field 1 String where
  read := Register.email
  value := Answer.emailed
  puts := puts_of_specify (fun _ => rfl) (fun _ _ => rfl) fun a r other => by
    cases a <;> first | rfl | exact absurd rfl (other _)
  own a := by cases a <;> simp [Answer.emailed,Answer.depth,Answer.asked,Page.depth]

def nameField : Field 2 String where
  read := Register.name
  value := Answer.named
  puts := puts_of_specify (fun _ => rfl) (fun _ _ => rfl) fun a r other => by
    cases a <;> first | rfl | exact absurd rfl (other _)
  own a := by cases a <;> simp [Answer.named,Answer.depth,Answer.asked,Page.depth]

def profileField : Field 3 (Option File) where
  read := Register.profile
  value := Answer.pictured
  puts := puts_of_specify (fun _ => rfl) (fun _ _ => rfl) fun a r other => by
    cases a <;> first | rfl | exact absurd rfl (other _)
  own a := by cases a <;> simp [Answer.pictured,Answer.depth,Answer.asked,Page.depth]

def photosField : Field 4 (List File) where
  read := Register.moreimages
  value := Answer.photographed
  puts := puts_of_specify (fun _ => rfl) (fun _ _ => rfl) fun a r other => by
    cases a <;> first | rfl | exact absurd rfl (other _)
  own a := by cases a <;> simp [Answer.photographed,Answer.depth,Answer.asked,Page.depth]

def dobField : Field 5 String where
  read := Register.dob
  value := Answer.dated
  puts := puts_of_specify (fun _ => rfl) (fun _ _ => rfl) fun a r other => by
    cases a <;> first | rfl | exact absurd rfl (other _)
  own a := by cases a <;> simp [Answer.dated,Answer.depth,Answer.asked,Page.depth]

def aboutField : Field 6 String where
  read := Register.about
  value := Answer.described
  puts := puts_of_specify (fun _ => rfl) (fun _ _ => rfl) fun a r other => by
    cases a <;> first | rfl | exact absurd rfl (other _)
  own a := by cases a <;> simp [Answer.described,Answer.depth,Answer.asked,Page.depth]

def statusField : Field 9 String where
  read := Register.neurologicalstatus
  value := Answer.classified
  puts := puts_of_specify (fun _ => rfl) (fun _ _ => rfl) fun a r other => by
    cases a <;> first | rfl | exact absurd rfl (other _)
  own a := by cases a <;> simp [Answer.classified,Answer.depth,Answer.asked,Page.depth]

def tagsField : Field 10 String where
  read := Register.followingApplies
  value := Answer.tagged
  puts := puts_of_specify (fun _ => rfl) (fun _ _ => rfl) fun a r other => by
    cases a <;> first | rfl | exact absurd rfl (other _)
  own a := by cases a <;> simp [Answer.tagged,Answer.depth,Answer.asked,Page.depth]

section Fields
variable {first : Page} {entered : Register} {h : Handed} {V : Type} {k : Nat}

/-- A field that one page puts in, and always, is as the answers on the route leave it. -/
theorem read_filled (sound : Sound first entered h) (f : Field k V)
    (page : k ≤ 9 ∨ ∃ a ∈ h.path, a.depth = k) :
    f.read (h.log.foldr Answer.write entered) = f.read (h.path.foldr Answer.write entered) := by
  by_cases asked : ∃ a ∈ h.path, a.depth = k
  · obtain ⟨a,member,depth⟩ := asked
    obtain ⟨v,written⟩ := Option.isSome_iff_exists.mp ((f.own a).mpr depth)
    refine sound.walk.read_path f.puts entered member written fun b after => ?_
    have deeper := after.1
    have other : ¬ (f.value b).isSome = true := fun some => by
      rw [depth,(f.own b).mp some] at deeper
      exact lt_irrefl _ deeper
    simpa using other
  · obtain bound | found := page
    · have early : k < first.depth := by
        by_contra late
        refine asked (asked_on sound.linked (not_lt.mp late) bound ?_)
        rw [sound.arrived]
        exact Nat.lt_of_le_of_lt bound (by decide)
      have none : ∀ a ∈ h.log, f.value a = none := fun a member => by
        have other : ¬ (f.value a).isSome = true := fun some => by
          have deep := sound.reached a member
          rw [(f.own a).mp some] at deep
          exact absurd deep (not_le.mpr early)
        simpa using other
      rw [f.puts.foldr,f.puts.foldr,List.findSome?_eq_none_iff.mpr none,
        List.findSome?_eq_none_iff.mpr fun a member => none a (sound.walk.subset member)]
    · exact absurd found asked

theorem opens_personality {a : Answer} (opened : a.opens = .aboutMePersonality) :
    (∃ selectedlist, a = .neurological selectedlist) ∨
      ∃ chosen, a = .status chosen ∧ typical chosen = true := by
  cases a with
  | neurological selectedlist => exact .inl ⟨selectedlist,rfl⟩
  | status chosen =>
    refine .inr ⟨chosen,rfl,?_⟩
    by_contra divergent
    simp [Answer.opens,divergent] at opened
  | yourIdentify =>
    simp only [Answer.opens] at opened
    split at opened <;> contradiction
  | email | name | profilePicture | morePhoto | age | about | specify | chooseMode =>
    contradiction

/-- Tags that were selected on another route stay in the register, but are not sent. -/
theorem followed_filled (sound : Sound first entered h) (entry : first.depth ≤ 2) :
    typical (h.filled entered).neurologicalstatus = true ∨
      h.register.followingApplies = (h.filled entered).followingApplies := by
  have arrived := sound.arrived
  cases path : h.path with
  | nil =>
    rw [path] at arrived
    rw [show first = .aboutMePersonality from arrived] at entry
    exact absurd entry (by decide)
  | cons a below =>
    rw [path] at arrived
    rcases opens_personality arrived with ⟨selectedlist,rfl⟩ | ⟨chosen,rfl,divergent⟩
    · right
      rw [sound.written]
      exact read_filled sound tagsField (.inr ⟨_,path ▸ List.mem_cons_self,rfl⟩)
    · left
      simpa [Handed.filled,beside,path,Answer.write] using divergent

/-- Only the gender, the mode and the tags may be left from another route. -/
theorem register_filled (sound : Sound first entered h) :
    h.register = {h.filled entered with
      gender := h.register.gender
      followingApplies := h.register.followingApplies
      mode := h.register.mode} := by
  -- what no answer is put into
  have never {V : Type} {read : Register → V}
      (kept : ∀ gender (r : Register), read {r with gender := gender} = read r)
      (others : ∀ a r, (∀ gender, a ≠ .specify gender) → read (Answer.write a r) = read r) :
      read (h.log.foldr Answer.write entered) = read (h.path.foldr Answer.write entered) := by
    have puts : Puts Answer.write read fun _ => none :=
      puts_of_specify (fun _ => rfl) kept others
    rw [puts.foldr,puts.foldr,List.findSome?_eq_none_iff.mpr fun _ _ => rfl,
      List.findSome?_eq_none_iff.mpr fun _ _ => rfl]
  have early {k : Nat} {V : Type} (f : Field k V) (bound : k ≤ 9) :
      f.read (h.log.foldr Answer.write entered) = f.read (h.path.foldr Answer.write entered) :=
    read_filled sound f (.inl bound)
  rw [sound.written]
  apply Register.ext
  · exact early nameField (by decide)
  · exact early emailField (by decide)
  · exact @never _ Register.password (fun _ _ => rfl) fun a r other => by
      cases a <;> first | rfl | exact absurd rfl (other _)
  · exact @never _ Register.deviceToken (fun _ _ => rfl) fun a r other => by
      cases a <;> first | rfl | exact absurd rfl (other _)
  · exact early dobField (by decide)
  · rfl
  · rfl
  · rfl
  · rfl
  · rfl
  · rfl
  · exact early profileField (by decide)
  · exact early photosField (by decide)
  · exact early aboutField (by decide)
  · exact @never _ Register.type (fun _ _ => rfl) fun a r other => by
      cases a <;> first | rfl | exact absurd rfl (other _)
  · exact @never _ Register.socialId (fun _ _ => rfl) fun a r other => by
      cases a <;> first | rfl | exact absurd rfl (other _)
  · rfl
  · exact early statusField (by decide)

theorem userRegister_congr (fcmToken : String) (r : Register) (gender followingApplies mode : String)
    (followed : typical r.neurologicalstatus = true ∨ followingApplies = r.followingApplies) :
    userRegister fcmToken {r with
        gender := gender
        followingApplies := followingApplies
        mode := mode} = userRegister fcmToken r ↔ gender = r.gender ∧ mode = r.mode := by
  rcases followed with unsent | rfl
  · simp [userRegister,unsent]
  · simp [userRegister]

theorem gender_puts : Puts Answer.write Register.gender Answer.gendered := by
  intro a r
  cases a with
  | specify gender =>
    simp only [Answer.write,Answer.gendered]
    split <;> rfl
  | email | name | profilePicture | morePhoto | age | about | yourIdentify | chooseMode | status
  | neurological => rfl

theorem mode_puts : Puts Answer.write Register.mode Answer.moded := by
  intro a r
  cases a with
  | specify gender =>
    simp only [Answer.write,Answer.moded]
    split <;> rfl
  | email | name | profilePicture | morePhoto | age | about | yourIdentify | chooseMode | status
  | neurological => rfl

/-- The mode, or the gender, that is the latest among these answers. -/
def latest (value : Answer → Option String) (answers : List Answer) (entered : String) : String :=
  (answers.findSome? value).getD entered

theorem request_filled_iff (sound : Sound first entered h) (entry : first.depth ≤ 2)
    (fcmToken : String) :
    userRegister fcmToken h.register = userRegister fcmToken (h.filled entered) ↔
      latest Answer.gendered h.log entered.gender = latest Answer.gendered h.path entered.gender ∧
        latest Answer.moded h.log entered.mode = latest Answer.moded h.path entered.mode := by
  have gender : h.register.gender = latest Answer.gendered h.log entered.gender := by
    rw [sound.written]
    exact gender_puts.foldr entered h.log
  have mode : h.register.mode = latest Answer.moded h.log entered.mode := by
    rw [sound.written]
    exact mode_puts.foldr entered h.log
  have shownGender : (h.filled entered).gender = latest Answer.gendered h.path entered.gender :=
    gender_puts.foldr entered h.path
  have shownMode : (h.filled entered).mode = latest Answer.moded h.path entered.mode :=
    mode_puts.foldr entered h.path
  rw [register_filled sound,userRegister_congr _ _ _ _ _ (followed_filled sound entry),
    gender,mode,shownGender,shownMode]

theorem final_mode (mode : String) : Walk.Final Before Answer.moded (.chooseMode mode) := by
  rintro b ⟨deeper,_⟩
  cases b <;> first | rfl | exact absurd deeper (lt_irrefl _)

theorem final_gender {gender : String} (other : gender ≠ "OTHER") :
    Walk.Final Before Answer.gendered (.yourIdentify gender) := by
  rintro b ⟨deeper,specifies⟩
  cases b with
  | specify text => exact absurd (specifies gender text rfl rfl) other
  | yourIdentify => exact absurd deeper (lt_irrefl _)
  | email | name | profilePicture | morePhoto | age | about | chooseMode | status
  | neurological => rfl

/-- Where the route asks for the mode, nothing that is left from other routes is sent. -/
theorem request_of_mode (sound : Sound first entered h) (entry : first.depth ≤ 2)
    (fcmToken : String) {mode : String} (asked : .chooseMode mode ∈ h.path) :
    userRegister fcmToken h.register = userRegister fcmToken (h.filled entered) := by
  obtain ⟨gender,other,identified⟩ := identified_of_mode sound.linked entry asked
  obtain ⟨onPath,ever⟩ := sound.walk.latest (v := mode) asked rfl (final_mode mode)
  obtain ⟨shown,given⟩ := sound.walk.latest (v := gender) identified rfl (final_gender other)
  refine (request_filled_iff sound entry fcmToken).mpr ⟨?_,?_⟩
  · rw [latest,latest,shown,given]
  · rw [latest,latest,onPath,ever]

end Fields

/-! Runs. -/

/-- What can be answered at all: nothing that is blank, and no option that is not shown. -/
def Answer.Filled : Answer → Prop
  | .email text | .name text | .age text | .about text => text ≠ ""
  | .yourIdentify gender => gender ∈ genders
  | .chooseMode mode => mode ∈ modes
  | .status chosen => chosen ∈ statuses
  | .neurological selectedlist => selectedlist ≠ []
  | .profilePicture _ | .morePhoto _ | .specify _ => True

section Steps
variable {first : Page} {entered : Register} {s t : State} {screen top : Screen} {a : Answer}

theorem create_page (register : Register) (page : Page) : (page.create register).page = page := by
  cases page <;> rfl

theorem left_page (screen : Screen) : screen.left.page = screen.page := by
  cases screen <;> rfl

theorem given_answered {text message : String} {answer : String → Answer}
    (answered : given text message answer = .answered a) : text ≠ "" ∧ a = answer text := by
  unfold given at answered
  split at answered
  next => contradiction
  next some => exact ⟨some,(Tap.answered.inj answered).symm⟩

theorem pressed_answered {names : List String} {options : Options names} {message : String}
    {answer : String → Answer} (answered : pressed options message answer = .answered a) :
    ∃ name ∈ names, a = answer name := by
  unfold pressed at answered
  split at answered
  next => contradiction
  next first rest selected =>
    have member : first ∈ options.selected := selected ▸ List.mem_cons_self
    exact ⟨first,options.selected_sublist.subset member,(Tap.answered.inj answered).symm⟩

theorem onTap_answered (tapped : top.onTap = .answered a) : a.asked = top.page ∧ a.Filled := by
  cases top with
  | aboutMeEmail | aboutMeName | aboutMeAge | aboutMeAbout =>
    obtain ⟨some,rfl⟩ := given_answered tapped
    exact ⟨rfl,some⟩
  | aboutMeYourIdentify | aboutMeChooseMode | aboutNeurologicalStatus =>
    obtain ⟨name,member,rfl⟩ := pressed_answered tapped
    exact ⟨rfl,member⟩
  | aboutMeProfilePicture image =>
    cases image with
    | none => contradiction
    | some image =>
      cases Tap.answered.inj tapped
      exact ⟨rfl,trivial⟩
  | aboutMeMorePhoto photos =>
    simp only [Screen.onTap] at tapped
    split at tapped
    next => contradiction
    next =>
      cases Tap.answered.inj tapped
      exact ⟨rfl,trivial⟩
  | aboutMeYourIdentifySpecify text =>
    cases Tap.answered.inj tapped
    exact ⟨rfl,trivial⟩
  | aboutMeNeurological con =>
    simp only [Screen.onTap] at tapped
    split at tapped
    next => contradiction
    next some =>
      cases Tap.answered.inj tapped
      exact ⟨rfl,some⟩
  | aboutMePersonality =>
    simp only [Screen.onTap] at tapped
    split at tapped <;> contradiction

theorem onTap_registers {personality : String} (tapped : top.onTap = .registers personality) :
    ∃ listImages : Options personalities, top = .aboutMePersonality listImages ∧
      listImages.selected ≠ [] ∧ personality = join ',' listImages.selected := by
  cases top with
  | aboutMePersonality listImages =>
    simp only [Screen.onTap] at tapped
    split at tapped
    next => contradiction
    next some => exact ⟨listImages,rfl,some,(Tap.registers.inj tapped).symm⟩
  | aboutMeEmail | aboutMeName | aboutMeAge | aboutMeAbout =>
    simp only [Screen.onTap,given] at tapped
    split at tapped <;> contradiction
  | aboutMeYourIdentify | aboutMeChooseMode | aboutNeurologicalStatus =>
    simp only [Screen.onTap,pressed] at tapped
    split at tapped <;> contradiction
  | aboutMeProfilePicture | aboutMeMorePhoto | aboutMeNeurological =>
    simp only [Screen.onTap] at tapped
    split at tapped <;> contradiction
  | aboutMeYourIdentifySpecify => contradiction

theorem edit_page {toUpperCase : String → String} {tempPath : String} {asserts assigned : Bool}
    {e : Edit} {edited : Screen}
    (done : screen.edit toUpperCase tempPath asserts assigned e = some edited) :
    edited.page = screen.page := by
  unfold Screen.edit at done
  split at done
  case h_1 =>
    split at done
    next => contradiction
    next =>
      rw [← Option.some.inj done]
      rfl
  case h_4 =>
    split at done
    next => contradiction
    next =>
      obtain ⟨photos,_,rfl⟩ := Option.map_eq_some_iff.mp done
      rfl
  case h_2 | h_3 | h_5 | h_6 | h_8 =>
    rw [← Option.some.inj done]
    simp only [Screen.page]
  case h_14 => contradiction
  all_goals
    obtain ⟨next,_,rfl⟩ := Option.map_eq_some_iff.mp done
    rfl

structure Kept (first : Page) (entered : Register) (s : State) : Prop where
  walk : Walk Before s.path s.log
  linked : Linked first s.path
  aligned : s.route ≠ [] → s.route.map Screen.page = s.path.map Answer.opens ++ [first]
  reached : ∀ a ∈ s.log, first.depth ≤ a.depth
  filled : ∀ a ∈ s.log, a.Filled
  written : s.register = beside s.register (s.log.foldr Answer.write entered)
  handed : ∀ h ∈ s.handed, Sound first entered h ∧ (∀ a ∈ h.log, a.Filled) ∧
    ∃ listImages : Options personalities, listImages.selected ≠ [] ∧
      h.register.personality = join ',' listImages.selected

theorem Kept.on_top {below : List Screen} (kept : Kept first entered s)
    (route : s.route = top :: below) : top.page = current first s.path := by
  have aligned := kept.aligned (by simp [route])
  rw [route,List.map_cons] at aligned
  cases path : s.path with
  | nil =>
    rw [path] at aligned
    exact (List.cons.inj aligned).1
  | cons a rest =>
    rw [path] at aligned
    exact (List.cons.inj aligned).1

theorem beside_write (a : Answer) (register base : Register) :
    a.write (beside register base) = beside (a.write register) (a.write base) := by
  cases a with
  | specify gender =>
    simp only [Answer.write]
    split <;> rfl
  | email | name | profilePicture | morePhoto | age | about | yourIdentify | chooseMode | status
  | neurological => rfl

theorem Kept.answered {below : List Screen} (kept : Kept first entered s)
    (route : s.route = top :: below) (tapped : top.onTap = .answered a) :
    Kept first entered (s.answered top below a) := by
  obtain ⟨asked,filled⟩ := onTap_answered tapped
  have linked : Linked first (a :: s.path) := ⟨asked.trans (kept.on_top route),kept.linked⟩
  have aligned := kept.aligned (by simp [route])
  refine ⟨.forward kept.walk (before_of_linked linked),linked,fun _ => ?_,?_,?_,?_,kept.handed⟩
  · rw [route,List.map_cons] at aligned
    simp only [State.answered,List.map_cons,create_page,left_page,List.cons_append,aligned]
  · refine List.forall_mem_cons.mpr ⟨?_,kept.reached⟩
    rw [Answer.depth,linked.1]
    exact first_le kept.linked
  · exact List.forall_mem_cons.mpr ⟨filled,kept.filled⟩
  · have written := congrArg a.write kept.written
    rw [beside_write] at written
    exact written

theorem Kept.registers {below : List Screen} (kept : Kept first entered s)
    (route : s.route = top :: below) {personality : String}
    (tapped : top.onTap = .registers personality) :
    Kept first entered (s.registers assigned personality) := by
  obtain ⟨listImages,rfl,some,rfl⟩ := onTap_registers tapped
  have written : {s.register with personality := join ',' listImages.selected} =
      beside {s.register with personality := join ',' listImages.selected}
        (s.log.foldr Answer.write entered) :=
    congrArg (fun r : Register => {r with personality := join ',' listImages.selected}) kept.written
  refine ⟨kept.walk,kept.linked,kept.aligned,kept.reached,kept.filled,written,?_⟩
  exact Pool.forall_append kept.handed ⟨⟨kept.walk,kept.linked,(kept.on_top route).symm,
    kept.reached,written⟩,kept.filled,listImages,some,rfl⟩

theorem Kept.back (kept : Kept first entered s) :
    Kept first entered {s with route := s.route.tail, path := s.path.tail} := by
  have aligned := kept.aligned
  obtain ⟨register,route,path,log,handed,posted⟩ := s
  cases path with
  | nil =>
    refine ⟨kept.walk,trivial,fun some => ?_,kept.reached,kept.filled,kept.written,kept.handed⟩
    have nonempty : route ≠ [] := by
      rintro rfl
      exact some rfl
    have length := congrArg List.length (aligned nonempty)
    simp only [List.length_map,List.map_nil,List.nil_append,List.length_singleton] at length
    obtain ⟨only,rfl⟩ := List.length_eq_one_iff.mp length
    exact absurd rfl some
  | cons a below =>
    refine ⟨.back kept.walk,kept.linked.2,fun some => ?_,kept.reached,kept.filled,kept.written,
      kept.handed⟩
    cases route with
    | nil => exact absurd rfl some
    | cons top under => exact (List.cons.inj (aligned (by simp))).2

theorem kept_step {toUpperCase : String → String} {tempPath : String} {asserts assigned : Bool}
    {a : Action} (kept : Kept first entered s)
    (stepped : s.step toUpperCase tempPath asserts assigned a = some t) :
    Kept first entered t := by
  cases a with
  | edit depth e =>
    simp only [State.step] at stepped
    split at stepped
    next =>
      obtain ⟨screen,found,changed⟩ := Option.bind_eq_some_iff.mp stepped
      obtain ⟨edited,done,rfl⟩ := Option.map_eq_some_iff.mp changed
      refine ⟨kept.walk,kept.linked,fun some => ?_,kept.reached,kept.filled,kept.written,
        kept.handed⟩
      rw [← kept.aligned (by rintro none; simp [none] at found)]
      exact Pool.map_set Screen.page found (edit_page done)
    next => contradiction
  | next =>
    simp only [State.step] at stepped
    split at stepped
    next => contradiction
    next =>
      rw [← Option.some.inj stepped,State.next]
      split
      next => exact kept
      next top below route =>
        split
        next => exact kept
        next => exact kept
        next a tapped => exact kept.answered route tapped
        next personality tapped => exact kept.registers route tapped
  | back =>
    simp only [State.step] at stepped
    split at stepped
    next => contradiction
    next =>
      rw [← Option.some.inj stepped]
      exact kept.back
  | located latitude longitude address =>
    rw [← Option.some.inj stepped]
    have written := congrArg (fun r : Register => {r with
      latitude := latitude
      longitude := longitude
      address := address}) kept.written
    exact ⟨kept.walk,kept.linked,kept.aligned,kept.reached,kept.filled,written,kept.handed⟩

end Steps

/-! A registration of somebody who has signed up with an email. -/

def ann : Register := {email := "ann@a.b", password := "x"}

def birthday : Stamp where
  year := 1997
  month := 11
  day := 23
  hour := 17
  minute := 53
  second := 37
  inYear := by decide
  inMonth := by decide
  inDay := by decide
  inHour := by decide
  inMinute := by decide
  inSecond := by decide

/-- From the page of the name to that of the gender. -/
def introduced : List Action :=
  [.edit 0 (.typed "Ann"),.next,.edit 0 (.picked ⟨"/a.jpg"⟩),.next,.next,
    .edit 0 (.confirmed birthday),.next,.edit 0 (.typed "Hi"),.next]

def networking : List Action := [.edit 0 (.pressed 0),.next,.edit 0 (.pressed 2),.next]

/-- Back to the gender from the page of the status, and on by OTHER. -/
def changed : List Action := [.back,.back,.edit 0 (.pressed 3),.next,.edit 0 (.typed "Agender"),.next]

/-- Back to the gender, and on with another one and another mode. -/
def reconsidered : List Action :=
  [.back,.back,.edit 0 (.pressed 1),.next,.edit 0 (.pressed 0),.next]

def ended : List Action := [.edit 0 (.pressed 0),.next,.edit 0 (.pressed 3),.next]

abbrev stepAnn : State → Action → Option State := State.step id "" false false

section Results
variable {toUpperCase : String → String} {tempPath : String} {asserts assigned : Bool}
  {first : Page} {entered : Register} {h : Handed} {as : List Action} {s t : State}

/-- The first screen is that of the email after a social login, and that of the name otherwise. -/
def Starts (first : Page) : Prop := first = .aboutMeEmail ∨ first = .aboutMeName

theorem Starts.entry (starts : Starts first) : first.depth ≤ 2 := by
  rcases starts with rfl | rfl <;> decide

theorem kept_run (run : Run (State.step toUpperCase tempPath asserts assigned) anyStep
    (State.opened entered first) as t) : Kept first entered t := by
  refine run.invariant (Kept first entered) ⟨.start,trivial,fun _ => ?_,?_,?_,rfl,?_⟩
    fun _ _ _ kept _ stepped => kept_step kept stepped
  · simp [State.opened,create_page]
  · simp [State.opened]
  · simp [State.opened]
  · simp [State.opened]

/-- However the user has gone back and forth, if the route asks for the mode, the request is the
one of a register that has been filled in along this route alone. -/
theorem request_of_route (starts : Starts first)
    (run : Run (State.step toUpperCase tempPath asserts assigned) anyStep
      (State.opened entered first) as t) :
    ∀ h ∈ t.handed, ∀ mode, .chooseMode mode ∈ h.path → ∀ fcmToken,
      userRegister fcmToken h.register = userRegister fcmToken (h.filled entered) :=
  fun h member _ asked fcmToken =>
    request_of_mode ((kept_run run).handed h member).1 starts.entry fcmToken asked

theorem request_of_route_networking : ∃ t, Run stepAnn anyStep (.opened ann .aboutMeName)
      (introduced ++ networking ++ reconsidered ++ ended) t ∧
      (∃ h ∈ t.handed, .chooseMode "NETWORKING" ∉ h.path ∧ .chooseMode "NETWORKING" ∈ h.log ∧
        .chooseMode "DATING" ∈ h.path) ∧
      ∀ h ∈ t.handed, ∀ mode, .chooseMode mode ∈ h.path → ∀ fcmToken,
        userRegister fcmToken h.register = userRegister fcmToken (h.filled ann) := by
  have computed : ∃ t, Run stepAnn anyStep (.opened ann .aboutMeName)
      (introduced ++ networking ++ reconsidered ++ ended) t ∧
        ∃ h ∈ t.handed, .chooseMode "NETWORKING" ∉ h.path ∧ .chooseMode "NETWORKING" ∈ h.log ∧
          .chooseMode "DATING" ∈ h.path :=
    Run.exists_of_exec (by decide +kernel)
  obtain ⟨t,run,changed⟩ := computed
  exact ⟨t,run,changed,request_of_route (.inr rfl) run⟩

/-- A field that the route has asked for holds what some answer has put there. -/
theorem answered_field {V : Type} {k : Nat} (sound : Sound first entered h) (f : Field k V)
    (early : first.depth ≤ k) (bound : k ≤ 9) :
    ∃ a ∈ h.log, f.value a = some (f.read (h.log.foldr Answer.write entered)) := by
  obtain ⟨a,member,depth⟩ := asked_on sound.linked early bound (by
    rw [sound.arrived]
    exact Nat.lt_of_le_of_lt bound (by decide))
  obtain ⟨v,put⟩ := Option.isSome_iff_exists.mp ((f.own a).mpr depth)
  cases found : h.log.findSome? f.value with
  | none =>
    have none := List.findSome?_eq_none_iff.mp found a (sound.walk.subset member)
    rw [put] at none
    contradiction
  | some v =>
    obtain ⟨b,inside,put⟩ := List.exists_of_findSome?_eq_some found
    refine ⟨b,inside,put.trans ?_⟩
    rw [f.puts.foldr,found,Option.getD_some]

/-- What the screens do not let pass. -/
structure Complete (first : Page) (entered register : Register) : Prop where
  name : register.name ≠ ""
  email : first = .aboutMeEmail ∨ entered.email ≠ "" → register.email ≠ ""
  dob : register.dob ≠ ""
  about : register.about ≠ ""
  gender : register.gender ≠ ""
  profile : register.profile ≠ none
  status : register.neurologicalstatus ∈ statuses
  personality : register.personality ≠ ""
  tags : typical register.neurologicalstatus = false →
    ∃ ids ≠ [], register.followingApplies = join ',' ids

theorem join_ne_empty {pieces : List String} (free : ∀ piece ∈ pieces, ',' ∉ piece.toList)
    (spelled : "" ∉ pieces) (some : pieces ≠ []) : join ',' pieces ≠ "" := by
  intro empty
  have single := split_join free some
  rw [empty,split_empty] at single
  exact spelled (single ▸ List.mem_singleton_self _)

theorem arrived_cases (sound : Sound first entered h) (entry : first.depth ≤ 2) :
    (∃ selectedlist, .neurological selectedlist ∈ h.path) ∨
      ∃ chosen below, h.path = .status chosen :: below ∧ typical chosen = true := by
  have arrived := sound.arrived
  cases path : h.path with
  | nil =>
    rw [path] at arrived
    rw [show first = .aboutMePersonality from arrived] at entry
    exact absurd entry (by decide)
  | cons a below =>
    rw [path] at arrived
    rcases opens_personality arrived with ⟨selectedlist,rfl⟩ | ⟨chosen,rfl,typed⟩
    · exact .inl ⟨selectedlist,List.mem_cons_self⟩
    · exact .inr ⟨chosen,below,rfl,typed⟩

theorem typical_arrived (sound : Sound first entered h) {chosen : String} {below : List Answer}
    (path : h.path = .status chosen :: below) (typed : typical chosen = true) :
    typical h.register.neurologicalstatus = true := by
  have status : (h.log.foldr Answer.write entered).neurologicalstatus = chosen := by
    refine (read_filled sound statusField (.inl (by decide))).trans ?_
    rw [path]
    rfl
  rw [sound.written]
  exact (congrArg typical status).trans typed

theorem gender_filled (sound : Sound first entered h) (filled : ∀ a ∈ h.log, a.Filled)
    (entry : first.depth ≤ 2) : (h.log.foldr Answer.write entered).gender ≠ "" := by
  have deeper : 7 < (current first h.path).depth := by
    rw [sound.arrived]
    decide
  obtain ⟨a,member,depth⟩ := asked_on sound.linked (entry.trans (by decide)) (by decide) deeper
  rw [gender_puts.foldr]
  cases found : h.log.findSome? Answer.gendered with
  | none =>
    have none := List.findSome?_eq_none_iff.mp found a (sound.walk.subset member)
    cases a <;> first | contradiction | exact absurd depth (by
      simp [Answer.depth,Answer.asked,Page.depth])
  | some gender =>
    obtain ⟨b,inside,put⟩ := List.exists_of_findSome?_eq_some found
    have shown := filled b inside
    cases b with
    | yourIdentify =>
      obtain rfl := Option.some.inj put
      rintro rfl
      exact absurd shown (show "" ∉ genders by decide)
    | specify =>
      simp only [Answer.gendered] at put
      split at put
      next => contradiction
      next some =>
        obtain rfl := Option.some.inj put
        exact some
    | email | name | profilePicture | morePhoto | age | about | chooseMode | status
    | neurological => contradiction

theorem tags_filled (sound : Sound first entered h) (filled : ∀ a ∈ h.log, a.Filled)
    {selectedlist : List String} (asked : .neurological selectedlist ∈ h.path) :
    ∃ ids ≠ [], (h.log.foldr Answer.write entered).followingApplies = join ',' ids := by
  cases found : h.log.findSome? Answer.tagged with
  | none =>
    have none := List.findSome?_eq_none_iff.mp found _ (sound.walk.subset asked)
    contradiction
  | some tags =>
    obtain ⟨b,inside,put⟩ := List.exists_of_findSome?_eq_some found
    have some := filled b inside
    have held : (h.log.foldr Answer.write entered).followingApplies = tags := by
      refine (tagsField.puts.foldr entered h.log).trans ?_
      exact congrArg (Option.getD · _) found
    cases b with
    | neurological ids => exact ⟨ids,some,held.trans (Option.some.inj put).symm⟩
    | email | name | profilePicture | morePhoto | age | about | yourIdentify | specify | chooseMode
    | status => contradiction

/-- The register is handed over only when everything that is asked for has been answered. -/
theorem handed_complete (starts : Starts first)
    (run : Run (State.step toUpperCase tempPath asserts assigned) anyStep
      (State.opened entered first) as t) :
    ∀ h ∈ t.handed, Complete first entered h.register := by
  intro h member
  obtain ⟨sound,filled,listImages,picked,personality⟩ := (kept_run run).handed h member
  have entry := starts.entry
  have text {k : Nat} (f : Field k String) (early : first.depth ≤ k) (bound : k ≤ 9)
      (asks : ∀ a, f.value a = none ∨ ∃ text, f.value a = some text ∧ (a.Filled → text ≠ "")) :
      f.read (h.log.foldr Answer.write entered) ≠ "" := by
    obtain ⟨a,inside,put⟩ := answered_field sound f early bound
    rcases asks a with none | ⟨text,held,spelled⟩
    · rw [none] at put
      contradiction
    · rw [put] at held
      rw [Option.some.inj held]
      exact spelled (filled a inside)
  have written := sound.written
  refine ⟨?_,?_,?_,?_,?_,?_,?_,?_,?_⟩
  · rw [written]
    refine text nameField (entry.trans (by decide)) (by decide) fun a => ?_
    cases a <;> first | exact .inl rfl | exact .inr ⟨_,rfl,id⟩
  · intro known
    rw [written]
    by_cases early : first.depth ≤ 1
    · refine text emailField early (by decide) fun a => ?_
      cases a <;> first | exact .inl rfl | exact .inr ⟨_,rfl,id⟩
    · have present : entered.email ≠ "" := by
        rcases known with rfl | present
        · exact absurd (le_refl 1) early
        · exact present
      rw [show (beside h.register (h.log.foldr Answer.write entered)).email =
        (h.log.findSome? Answer.emailed).getD entered.email from emailField.puts.foldr entered h.log]
      cases found : h.log.findSome? Answer.emailed with
      | none => exact present
      | some text =>
        obtain ⟨a,inside,put⟩ := List.exists_of_findSome?_eq_some found
        cases a <;> first | contradiction | exact Option.some.inj put ▸ filled _ inside
  · rw [written]
    refine text dobField (entry.trans (by decide)) (by decide) fun a => ?_
    cases a <;> first | exact .inl rfl | exact .inr ⟨_,rfl,id⟩
  · rw [written]
    refine text aboutField (entry.trans (by decide)) (by decide) fun a => ?_
    cases a <;> first | exact .inl rfl | exact .inr ⟨_,rfl,id⟩
  · rw [written]
    exact gender_filled sound filled entry
  · rw [written]
    obtain ⟨a,_,put⟩ := answered_field sound profileField (entry.trans (by decide)) (by decide)
    intro none
    cases a with
    | profilePicture image => exact Option.some_ne_none image ((Option.some.inj put).trans none)
    | email | name | morePhoto | age | about | yourIdentify | specify | chooseMode | status
    | neurological => contradiction
  · rw [written]
    obtain ⟨a,inside,put⟩ := answered_field sound statusField (entry.trans (by decide)) (by decide)
    cases a with
    | status chosen =>
      have same : chosen = (h.log.foldr Answer.write entered).neurologicalstatus :=
        Option.some.inj put
      exact same ▸ filled _ inside
    | email | name | profilePicture | morePhoto | age | about | yourIdentify | specify | chooseMode
    | neurological => contradiction
  · rw [personality]
    refine join_ne_empty (fun piece member => ?_) (fun member => ?_) picked
    · exact (show ∀ name ∈ personalities, ',' ∉ name.toList by decide) piece
        (listImages.selected_sublist.subset member)
    · exact absurd (listImages.selected_sublist.subset member) (by decide)
  · intro divergent
    rcases arrived_cases sound entry with ⟨selectedlist,asked⟩ | ⟨chosen,below,path,typed⟩
    · rw [written]
      exact tags_filled sound filled asked
    · rw [typical_arrived sound path typed] at divergent
      contradiction

theorem handed_complete_ann : ∃ t,
    Run stepAnn anyStep (.opened ann .aboutMeName) (introduced ++ networking ++ changed ++ ended) t ∧
      t.handed.length = 1 ∧ ∀ h ∈ t.handed, Complete .aboutMeName ann h.register := by
  have computed : ∃ t, Run stepAnn anyStep (.opened ann .aboutMeName)
      (introduced ++ networking ++ changed ++ ended) t ∧ t.handed.length = 1 :=
    Run.exists_of_exec (by decide +kernel)
  obtain ⟨t,run,once⟩ := computed
  exact ⟨t,run,once,handed_complete (.inr rfl) run⟩

def Idle (screen : Screen) : Prop :=
  ∀ con, screen = .aboutMeNeurological con → con.listHash = [] ∧ con.calls = []

/-- Without a loader no tag is ever listed on the page of the tags, and nobody gets past it. -/
structure Stuck (s : State) : Prop where
  idle : ∀ screen ∈ s.route, Idle screen
  untagged : ∀ a ∈ s.log, a.asked ≠ .aboutMeNeurological
  handed : ∀ h ∈ s.handed, ∀ a ∈ h.log, a.asked ≠ .aboutMeNeurological
  posted : s.posted = []

theorem onTap_listHash (con : HashTagController) :
    (con.onTap toUpperCase asserts).listHash = con.listHash := by
  unfold HashTagController.onTap HashTagController.addHashtag
  split
  · rfl
  · split
    · rfl
    · split <;> rfl

theorem tagStep_stuck {con next : HashTagController} {a : TagAdding.Action}
    (stuck : con.listHash = [] ∧ con.calls = [])
    (stepped : tagStep toUpperCase asserts false con a = some next) :
    next.listHash = [] ∧ next.calls = [] := by
  obtain ⟨unlisted,idle⟩ := stuck
  obtain ⟨moved,taken,rfl⟩ := Option.map_eq_some_iff.mp stepped
  refine ⟨?_,idle⟩
  cases a with
  | typed text =>
    rw [← Option.some.inj taken]
    exact unlisted
  | add =>
    rw [← Option.some.inj taken]
    exact (onTap_listHash con).trans unlisted
  | connected | responded | failed => simp [HashTagController.step,idle] at taken
  | hidden =>
    obtain ⟨loader,_,rfl⟩ := Option.map_eq_some_iff.mp taken
    exact unlisted

theorem edit_idle {screen edited : Screen} {e : Edit} (idle : Idle screen)
    (done : screen.edit toUpperCase tempPath asserts false e = some edited) : Idle edited := by
  rintro con rfl
  have page := edit_page done
  cases screen with
  | aboutMeNeurological before =>
    have held := idle before rfl
    cases e with
    | pressed i =>
      obtain ⟨next,pressed,same⟩ := Option.map_eq_some_iff.mp done
      simp [pressedTag,held.1] at pressed
    | tags a =>
      obtain ⟨next,stepped,same⟩ := Option.map_eq_some_iff.mp done
      obtain rfl := Screen.aboutMeNeurological.inj same
      exact tagStep_stuck held stepped
    | typed | confirmed | picked | photos => contradiction
  | aboutMeEmail | aboutMeName | aboutMeProfilePicture | aboutMeMorePhoto | aboutMeAge
  | aboutMeAbout | aboutMeYourIdentify | aboutMeYourIdentifySpecify | aboutMeChooseMode
  | aboutNeurologicalStatus | aboutMePersonality => contradiction

theorem create_idle (register : Register) (page : Page) : Idle (page.create register) := by
  intro con same
  cases page <;> cases same
  exact ⟨rfl,rfl⟩

theorem left_idle {screen : Screen} (idle : Idle screen) : Idle screen.left := by
  cases screen with
  | aboutMeMorePhoto =>
    intro con same
    contradiction
  | aboutMeEmail | aboutMeName | aboutMeProfilePicture | aboutMeNeurological | aboutMeAge
  | aboutMeAbout | aboutMeYourIdentify | aboutMeYourIdentifySpecify | aboutMeChooseMode
  | aboutNeurologicalStatus | aboutMePersonality => exact idle

theorem asked_idle {top : Screen} {a : Answer} (idle : Idle top)
    (tapped : top.onTap = .answered a) : a.asked ≠ .aboutMeNeurological := by
  intro asked
  cases top with
  | aboutMeNeurological con => simp [Screen.onTap,(idle con rfl).1] at tapped
  | aboutMeEmail | aboutMeName | aboutMeProfilePicture | aboutMeMorePhoto | aboutMeAge
  | aboutMeAbout | aboutMeYourIdentify | aboutMeYourIdentifySpecify | aboutMeChooseMode
  | aboutNeurologicalStatus | aboutMePersonality =>
    have page := (onTap_answered tapped).1
    rw [asked] at page
    contradiction

theorem stuck_step {a : Action} (stuck : Stuck s)
    (stepped : s.step toUpperCase tempPath asserts false a = some t) : Stuck t := by
  cases a with
  | edit depth e =>
    simp only [State.step] at stepped
    split at stepped
    next =>
      obtain ⟨screen,found,changed⟩ := Option.bind_eq_some_iff.mp stepped
      obtain ⟨edited,done,rfl⟩ := Option.map_eq_some_iff.mp changed
      have idle := edit_idle (stuck.idle screen (List.mem_of_getElem? found)) done
      exact ⟨Pool.forall_set stuck.idle idle,stuck.untagged,stuck.handed,stuck.posted⟩
    next => contradiction
  | next =>
    simp only [State.step] at stepped
    split at stepped
    next => contradiction
    next =>
      rw [← Option.some.inj stepped,State.next]
      split
      next => exact stuck
      next top below route =>
        obtain ⟨idle,others⟩ := List.forall_mem_cons.mp (route ▸ stuck.idle)
        split
        next => exact stuck
        next => exact stuck
        next a tapped =>
          refine ⟨?_,List.forall_mem_cons.mpr ⟨asked_idle idle tapped,stuck.untagged⟩,stuck.handed,
            stuck.posted⟩
          exact List.forall_mem_cons.mpr ⟨create_idle _ _,
            List.forall_mem_cons.mpr ⟨left_idle idle,others⟩⟩
        next =>
          exact ⟨stuck.idle,stuck.untagged,Pool.forall_append stuck.handed stuck.untagged,
            stuck.posted⟩
  | back =>
    simp only [State.step] at stepped
    split at stepped
    next => contradiction
    next =>
      rw [← Option.some.inj stepped]
      exact ⟨fun screen member => stuck.idle screen (List.mem_of_mem_tail member),stuck.untagged,
        stuck.handed,stuck.posted⟩
  | located =>
    rw [← Option.some.inj stepped]
    exact ⟨stuck.idle,stuck.untagged,stuck.handed,stuck.posted⟩

/-- As long as the loader of the controllers is not assigned, the page of the tags lists none and
nobody leaves it forwards; only registrations of neurotypical users are ever handed over, and none
gets any further. -/
theorem only_neurotypical (starts : Starts first)
    (run : Run (State.step toUpperCase tempPath asserts false) anyStep
      (State.opened entered first) as t) :
    (∀ con, .aboutMeNeurological con ∈ t.route → con.listHash = []) ∧
    (∀ a ∈ t.log, a.asked ≠ .aboutMeNeurological) ∧
    (∀ h ∈ t.handed, typical h.register.neurologicalstatus = true) ∧ t.posted = [] := by
  have initial : Stuck (State.opened entered first) :=
    ⟨by simpa [State.opened] using create_idle entered first,by simp [State.opened],
      by simp [State.opened],rfl⟩
  have stuck := run.invariant Stuck initial fun _ _ _ held _ stepped => stuck_step held stepped
  refine ⟨fun con shown => (stuck.idle _ shown con rfl).1,stuck.untagged,fun h member => ?_,
    stuck.posted⟩
  have sound := ((kept_run run).handed h member).1
  rcases arrived_cases sound starts.entry with ⟨selectedlist,asked⟩ | ⟨chosen,below,path,typed⟩
  · exact absurd rfl (stuck.handed h member _ (sound.walk.subset asked))
  · exact typical_arrived sound path typed

/-- To the page of the tags, in vain, and back. -/
def untagged : List Action := [.edit 0 (.pressed 1),.next,.edit 0 (.tags (.typed "TEA")),
  .edit 0 (.tags .add),.next,.back]

theorem only_neurotypical_ann : ∃ t, Run stepAnn anyStep (.opened ann .aboutMeName)
      (introduced ++ networking ++ untagged ++ ended) t ∧ t.handed.length = 1 ∧
      (∀ con, .aboutMeNeurological con ∈ t.route → con.listHash = []) ∧
      (∀ a ∈ t.log, a.asked ≠ .aboutMeNeurological) ∧
      (∀ h ∈ t.handed, typical h.register.neurologicalstatus = true) ∧ t.posted = [] := by
  have computed : ∃ t, Run stepAnn anyStep (.opened ann .aboutMeName)
      (introduced ++ networking ++ untagged ++ ended) t ∧ t.handed.length = 1 :=
    Run.exists_of_exec (by decide +kernel)
  obtain ⟨t,run,once⟩ := computed
  exact ⟨t,run,once,only_neurotypical (.inr rfl) run⟩

end Results

end Neuro.Registration
