import Neuro.FirebaseManager

/-! Whose documents the inbox shows. No listener is ever cancelled and a logout does
not reach the singleton, so the lists keep to the user who is logged in as long as
the process serves one account. -/
namespace Neuro.SessionInbox
open Neuro.Lib ChatScreen GroupChatScreen InboxEntry FirebaseManager

/-- Both lists hold rows of the logged-in user's collections only, and no row has
been added while somebody else, or nobody, was logged in. -/
def Isolated (s : Device) : Prop :=
  (s.userId ≠ "" →
    (∀ row ∈ s.listUser, row.owner = s.userId) ∧ ∀ row ∈ s.listGroup, row.owner = s.userId) ∧
  ∀ entry ∈ s.added, entry.2 = entry.1

instance (s : Device) : Decidable (Isolated s) := inferInstanceAs (Decidable (_ ∧ _))

def completes (s : Device) : Task → Bool
  | .element _ doc => !s.containsKey (peerId s.userId doc)
  | .unread .. | .group .. => true
  | .userSociallogin | .getUserList | .getGroupList | .setListGroup .. | .unreadGroup .. => false

/-- No account logs in while a listener of another one is open, and no row is
completed while nobody is logged in. -/
def SingleAccount (s : Device) : Action → Prop
  | .login userId | .userSociallogin userId => ∀ l ∈ s.listeners, l.owner = userId
  | .resume task _ => ∀ t ∈ s.tasks[task]?, completes s t = true → s.userId ≠ ""
  | _ => True

instance : ∀ s a, Decidable (SingleAccount s a)
  | _,.login _ | _,.userSociallogin _ | _,.resume .. => inferInstanceAs (Decidable (∀ _ ∈ _, _))
  | _,.appStart | _,.logout | _,.openChat .. | _,.snapshotUsers .. | _,.snapshotGroups .. =>
    inferInstanceAs (Decidable True)

/-- What the continuation of a step leaves behind: everything new belongs to the
owner of the step, a new listener to the user who is logged in. -/
structure Grown (s : Device) (t : Task) (next : Device) : Prop where
  userId : next.userId = s.userId
  opened : ∀ l ∈ next.listeners, l ∈ s.listeners ∨ s.userId ≠ "" ∧ l.owner = s.userId
  kept : ∀ l ∈ s.listeners, l ∈ next.listeners
  tasks : ∀ r ∈ next.tasks, r ∈ s.tasks ∨ r.owner = t.owner
  listUser : ∀ row ∈ next.listUser, row ∈ s.listUser ∨ t.owner = some row.owner
  listGroup : ∀ row ∈ next.listGroup, row ∈ s.listGroup ∨ t.owner = some row.owner
  added : ∀ entry ∈ next.added, entry ∈ s.added ∨
    completes s t = true ∧ t.owner = some entry.1 ∧ entry.2 = s.userId

variable {s next : Device}

theorem grown_self {t : Task} : Grown s t s :=
  ⟨rfl,fun _ => .inl,fun _ => id,fun _ => .inl,fun _ => .inl,fun _ => .inl,fun _ => .inl⟩

theorem grown_await {t : Task} {tasks : List Task} (same : ∀ r ∈ tasks, r.owner = t.owner) :
    Grown s t (s.await tasks) := by
  refine {grown_self with tasks := fun r member => ?_}
  exact (List.mem_append.mp member).imp_right (same r)

theorem grown_listen {t : Task} {l : Listener} (grown : Grown s t next) (some : s.userId ≠ "")
    (own : l.owner = s.userId) : Grown s t {next with listeners := s.listeners ++ [l]} := by
  refine {grown with opened := fun k member => ?_,kept := fun k => List.mem_append_left _}
  rcases List.mem_append.mp member with old | new
  · exact .inl old
  · exact .inr ⟨some,List.mem_singleton.mp new ▸ own⟩

theorem grown_add {t : Task} {owner : String} {users : List (Row MessageUser)}
    {groups : List (Row GroupUser)} (own : t.owner = some owner) (last : completes s t = true)
    (user : ∀ row ∈ users, row ∈ s.listUser ∨ row.owner = owner)
    (group : ∀ row ∈ groups, row ∈ s.listGroup ∨ row.owner = owner) :
    Grown s t {s with
      listUser := users
      listGroup := groups
      added := s.added ++ [(owner,s.userId)]} where
  userId := rfl
  opened l := .inl
  kept l := id
  tasks r := .inl
  listUser row member := (user row member).imp_right fun (same : row.owner = owner) => same ▸ own
  listGroup row member := (group row member).imp_right fun (same : row.owner = owner) => same ▸ own
  added entry member := by
    apply (List.mem_append.mp member).imp_right
    intro new
    rw [List.mem_singleton.mp new]
    exact ⟨last,own,rfl⟩

theorem owner_of_appended {D : Type} {rows : List (Row D)} {owner : String} {data : D} :
    ∀ row ∈ rows ++ [⟨owner,data⟩], row ∈ rows ∨ row.owner = owner := by
  intro row member
  apply (List.mem_append.mp member).imp_right
  intro new
  rw [List.mem_singleton.mp new]

theorem grown_addUser {t : Task} {owner : String} {data : Option MessageUser}
    (own : t.owner = some owner) (last : completes s t = true) :
    Grown s t (s.addUser owner data) := by
  cases data with
  | none => exact grown_self
  | some data => exact grown_add own last owner_of_appended fun _ => .inl

theorem grown_addGroup {t : Task} {owner : String} {data : Option GroupUser}
    (own : t.owner = some owner) (last : completes s t = true) :
    Grown s t (s.addGroup owner data) := by
  cases data with
  | none => exact grown_self
  | some data => exact grown_add own last (fun _ => .inl) owner_of_appended

theorem groupTasks_owner (s : Device) {owner : String} {docs : List RecentGroup} :
    ∀ r ∈ s.groupTasks owner docs, r.owner = some owner := by
  induction docs with
  | nil => simp [Device.groupTasks]
  | cons doc rest ih =>
    rw [Device.groupTasks]
    split
    · simp
    · intro r member
      rcases List.mem_cons.mp member with rfl | later
      · split <;> rfl
      · exact ih r later

theorem grown_continued (s : Device) (answer : Answer) (t : Task) :
    Grown s t (s.continued answer t) := by
  cases t with
  | userSociallogin => exact grown_await (by simp [Task.owner])
  | getUserList =>
    rw [Device.continued]
    have awaited : Grown s .getUserList (s.await [.getGroupList]) :=
      grown_await (by simp [Task.owner])
    split
    · exact awaited
    next some => exact grown_listen awaited some rfl
  | getGroupList =>
    rw [Device.continued]
    split
    · exact grown_self
    next some => exact grown_listen grown_self some rfl
  | element owner doc =>
    rw [Device.continued]
    split
    · exact grown_await (by simp [Task.owner])
    next unmarked => exact grown_addUser rfl (by simpa [completes] using unmarked)
  | unread => exact grown_addUser rfl rfl
  | setListGroup => exact grown_await (groupTasks_owner s)
  | unreadGroup => exact grown_await (by simp [Task.owner])
  | group => exact grown_addGroup rfl rfl

/-- Everything in the process comes from a listener, and all listeners are those of
the user who is logged in. -/
structure Served (s : Device) : Prop where
  current : s.userId ≠ "" → ∀ l ∈ s.listeners, l.owner = s.userId
  tasks : ∀ t ∈ s.tasks, ∀ owner ∈ t.owner, ∃ l ∈ s.listeners, l.owner = owner
  listUser : ∀ row ∈ s.listUser, ∃ l ∈ s.listeners, l.owner = row.owner
  listGroup : ∀ row ∈ s.listGroup, ∃ l ∈ s.listeners, l.owner = row.owner
  added : ∀ entry ∈ s.added, entry.2 = entry.1

theorem Served.isolated (served : Served s) : Isolated s := by
  refine ⟨fun some => ⟨fun row member => ?_,fun row member => ?_⟩,served.added⟩
  · obtain ⟨l,listens,own⟩ := served.listUser row member
    exact own ▸ served.current some l listens
  · obtain ⟨l,listens,own⟩ := served.listGroup row member
    exact own ▸ served.current some l listens

theorem Served.await {tasks : List Task} (served : Served s)
    (new : ∀ t ∈ tasks, ∀ owner ∈ t.owner, ∃ l ∈ s.listeners, l.owner = owner) :
    Served (s.await tasks) where
  current := served.current
  tasks t member := (List.mem_append.mp member).elim (served.tasks t) (new t)
  listUser := served.listUser
  listGroup := served.listGroup
  added := served.added

theorem Served.continued {answer : Answer} {t : Task} (served : Served s)
    (own : ∀ owner ∈ t.owner, ∃ l ∈ s.listeners, l.owner = owner)
    (inside : completes s t = true → s.userId ≠ "") : Served (s.continued answer t) := by
  have grown := grown_continued s answer t
  have listens : ∀ owner, t.owner = some owner →
      ∃ l ∈ (s.continued answer t).listeners, l.owner = owner := by
    intro owner owned
    obtain ⟨l,member,same⟩ := own owner owned
    exact ⟨l,grown.kept l member,same⟩
  have still {owner : String} : (∃ l ∈ s.listeners, l.owner = owner) →
      ∃ l ∈ (s.continued answer t).listeners, l.owner = owner :=
    fun ⟨l,member,same⟩ => ⟨l,grown.kept l member,same⟩
  constructor
  · intro some l member
    rw [grown.userId] at some ⊢
    exact (grown.opened l member).elim (served.current some l) And.right
  · intro r member owner owned
    rcases grown.tasks r member with old | new
    · exact still (served.tasks r old owner owned)
    · exact listens owner (new ▸ owned)
  · intro row member
    exact (grown.listUser row member).elim (fun old => still (served.listUser row old)) (listens _)
  · intro row member
    exact (grown.listGroup row member).elim (fun old => still (served.listGroup row old)) (listens _)
  · intro entry member
    rcases grown.added entry member with old | ⟨last,owned,user⟩
    · exact served.added entry old
    · obtain ⟨l,member,same⟩ := own entry.1 owned
      rw [user,← same,served.current (inside last) l member]

theorem served_step {a : Action} (served : Served s) (single : SingleAccount s a)
    (stepped : s.step a = some next) : Served next := by
  cases a with
  | appStart =>
    cases Option.some.inj stepped
    exact served.await (by simp [Task.owner])
  | login userId =>
    cases Option.some.inj stepped
    exact Served.await {served with current := fun _ => single} (by simp [Task.owner])
  | userSociallogin userId =>
    cases Option.some.inj stepped
    exact Served.await {served with current := fun _ => single} (by simp [Task.owner])
  | logout =>
    cases Option.some.inj stepped
    exact {served with current := fun some => absurd rfl some}
  | openChat peerId now =>
    cases Option.some.inj stepped
    exact {served with}
  | snapshotUsers listener docs =>
    rw [Device.step] at stepped
    split at stepped
    next owner found =>
      cases Option.some.inj stepped
      refine Served.await {served with listUser := by simp} fun t member owned equal => ?_
      obtain ⟨doc,_,rfl⟩ := List.mem_map.mp member
      cases Option.some.inj equal
      exact ⟨_,List.mem_of_getElem? found,rfl⟩
    next => contradiction
  | snapshotGroups listener docs =>
    rw [Device.step] at stepped
    split at stepped
    next owner found =>
      cases Option.some.inj stepped
      refine Served.await {served with listGroup := by simp} fun t member owned equal => ?_
      cases List.mem_singleton.mp member
      cases Option.some.inj equal
      exact ⟨_,List.mem_of_getElem? found,rfl⟩
    next => contradiction
  | resume task answer =>
    obtain ⟨t,found,_,rfl⟩ := resume_cases stepped
    have others : Served {s with tasks := s.tasks.eraseIdx task} :=
      {served with tasks := fun r member => served.tasks r (List.mem_of_mem_eraseIdx member)}
    exact others.continued (served.tasks t (List.mem_of_getElem? found)) (single t found)

/-- As long as a process serves one account, its inbox shows that account only. The
preferences may hold a user from an earlier process. -/
theorem inbox_of_one_account {zone : Int} {userId : String} {marks : List (String × Int)}
    {as : List Action}
    (run : Run Device.step SingleAccount (.started zone userId marks) as s) : Isolated s := by
  apply Served.isolated
  apply run.invariant Served
  · constructor <;> simp [Device.started]
  · exact fun _ _ _ => served_step

def document : RecentUser where
  idFrom := some ""
  idTo := some ""
  timestamp := some 0
  content := some ""
  type := some 0
  nickname := some ""
  photoUrl := some ""

theorem inbox_of_one_account_again : ∃ t,
    Run Device.step SingleAccount (.started 0 "" []) [.login "1",.resume 0 {},.resume 0 {},
      .snapshotUsers 0 [document],.resume 0 {},.logout,.login "1"] t ∧
      t.listUser ≠ [] ∧ Isolated t := by
  obtain ⟨t,run,shown⟩ : ∃ t,
      Run Device.step SingleAccount (.started 0 "" []) [.login "1",.resume 0 {},.resume 0 {},
        .snapshotUsers 0 [document],.resume 0 {},.logout,.login "1"] t ∧ t.listUser ≠ [] :=
    Run.exists_of_exec (by decide)
  exact ⟨t,run,shown,inbox_of_one_account run⟩

/-- The listener opened for one account fills the inbox of the next one. -/
theorem inbox_of_other_account : ∃ t,
    Run Device.step anyStep (.started 0 "" []) [.login "1",.resume 0 {},.resume 0 {},.logout,
      .login "2",.snapshotUsers 0 [document],.resume 1 {}] t ∧ ¬ Isolated t :=
  Run.exists_of_exec (by decide)

theorem resume_last (s : Device) (t : Task) (answer : Answer) (fits : answer.answers t = true) :
    (s.await [t]).step (.resume s.tasks.length answer) = some (s.continued answer t) := by
  simp [Device.step,Device.await,List.eraseIdx_append_of_length_le,fits]

theorem messageUser_document (zone now : Int) (currentUserId count : String) :
    ∃ data, messageUser zone now currentUserId count document = some data := by
  by_cases own : currentUserId = "" <;> exact ⟨_,by simp [messageUser,document,own]; rfl⟩

theorem element_adds (s : Device) (owner : String) :
    ∃ as t, Run Device.step anyStep (s.await [.element owner document]) as t ∧
      (owner,s.userId) ∈ t.added := by
  have resumed := resume_last s (.element owner document) {} rfl
  rw [Device.continued] at resumed
  split at resumed
  · have again := resume_last s (.unread owner s.userId document) {} rfl
    obtain ⟨data,built⟩ := messageUser_document s.zone 0 s.userId ""
    rw [Device.continued,unreadCount,built] at again
    exact ⟨_,_,.cons trivial resumed (.cons trivial again .nil),by simp [Device.addUser]⟩
  · obtain ⟨data,built⟩ := messageUser_document s.zone 0 s.userId ""
    rw [built] at resumed
    exact ⟨_,_,.cons trivial resumed .nil,by simp [Device.addUser]⟩

def groupDocument : RecentGroup := ⟨some "",some 0,some "",some 0⟩

theorem setListGroup_adds (s : Device) (owner : String) :
    ∃ as t, Run Device.step anyStep (s.await [.setListGroup owner [groupDocument]]) as t ∧
      (owner,s.userId) ∈ t.added := by
  have resumed := resume_last s (.setListGroup owner [groupDocument]) {} rfl
  have added (count : String) :=
    resume_last s (.group owner "" count groupDocument) {group := some ⟨"","","","",[]⟩} rfl
  rw [Device.continued,groupDocument,Device.groupTasks,Device.groupTasks] at resumed
  dsimp only at resumed
  split at resumed
  · have counted := resume_last s (.unreadGroup owner "" groupDocument) {} rfl
    exact ⟨_,_,.cons trivial resumed (.cons trivial counted (.cons trivial (added _) .nil)),
      by simp [Device.continued,Device.addGroup,groupUser,groupDocument]⟩
  · exact ⟨_,_,.cons trivial resumed (.cons trivial (added _) .nil),
      by simp [Device.continued,Device.addGroup,groupUser,groupDocument]⟩

/-- The condition on logins is needed: while somebody else's listener is open, its
next snapshot can end in a row shown to the wrong user. -/
theorem breach_of_open_listener {l : Listener} (listens : l ∈ s.listeners)
    (other : l.owner ≠ s.userId) : ∃ as t, Run Device.step anyStep s as t ∧ ¬ Isolated t := by
  obtain ⟨i,bound,found⟩ := List.mem_iff_getElem.mp listens
  have breach {t : Device} (added : (l.owner,s.userId) ∈ t.added) : ¬ Isolated t :=
    fun isolated => other (isolated.2 _ added).symm
  cases l with
  | users owner =>
    obtain ⟨as,t,run,added⟩ := element_adds {s with listUser := []} owner
    have delivered : s.step (.snapshotUsers i [document]) = some (s.setList owner [document]) := by
      simp [Device.step,bound,found]
    exact ⟨_,t,.cons trivial delivered run,breach added⟩
  | groups owner =>
    obtain ⟨as,t,run,added⟩ := setListGroup_adds {s with listGroup := []} owner
    have delivered : s.step (.snapshotGroups i [groupDocument]) =
        some (s.setListGroup owner [groupDocument]) := by
      simp [Device.step,bound,found]
    exact ⟨_,t,.cons trivial delivered run,breach added⟩

end Neuro.SessionInbox
