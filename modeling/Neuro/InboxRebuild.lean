import Neuro.SessionInbox
import Neuro.Lib.Worklist

/-! The two lists of `FirebaseManager` after a snapshot: each rebuild empties a list and
its closures then append to whatever the list has become. -/
namespace Neuro.InboxRebuild
open Neuro.Lib ChatScreen GroupChatScreen InboxEntry FirebaseManager

/-- The documents a step is still to append rows for. -/
def userDocs : Task → List RecentUser
  | .element _ doc | .unread _ _ doc => [doc]
  | .userSociallogin | .getUserList | .getGroupList | .setListGroup .. | .unreadGroup ..
  | .group .. => []

def groupDocs : Task → List RecentGroup
  | .setListGroup _ docs => docs
  | .unreadGroup _ _ doc | .group _ _ _ doc => [doc]
  | .userSociallogin | .getUserList | .getGroupList | .element .. | .unread .. => []

def latestUsers : List Action → List RecentUser :=
  List.foldl (fun docs a => match a with
    | .snapshotUsers _ new => new
    | _ => docs) []

def latestGroups : List Action → List RecentGroup :=
  List.foldl (fun docs a => match a with
    | .snapshotGroups _ new => new
    | _ => docs) []

/-- The row is the one of this version of the document, with some count and time left. -/
def BuiltUser (userId : String) (doc : RecentUser) (row : Row MessageUser) : Prop :=
  ∃ zone now count, messageUser zone now userId count doc = some row.data

/-- The group is the one that the document names. -/
def BuiltGroup (doc : RecentGroup) (row : Row GroupUser) : Prop :=
  ∃ group count, doc.groupId = some group.id ∧ groupUser count doc group = some row.data

/-- A step reads the group of its document. -/
def Named : Task → Prop
  | .unreadGroup _ groupId doc | .group _ groupId _ doc => doc.groupId = some groupId
  | .userSociallogin | .getUserList | .getGroupList | .element .. | .unread .. | .setListGroup .. =>
    True

/-- Both lists are those of the latest snapshots. -/
structure Rebuilt (userId : String) (as : List Action) (s : Device) : Prop where
  users : Worklist.Complete (BuiltUser userId) (latestUsers as) s.listUser
  groups : Worklist.Complete BuiltGroup (latestGroups as) s.listGroup

def Idle (s : Device) : Prop := ∀ t ∈ s.tasks, t.owner = none

instance (s : Device) : Decidable (Idle s) := inferInstanceAs (Decidable (∀ _ ∈ _, _))

/-- The step does not throw on a missing field and finds its group. -/
def Builds (s : Device) (answer : Answer) : Task → Prop
  | .element _ doc => s.containsKey (peerId s.userId doc) = false →
    messageUser s.zone answer.now s.userId "" doc ≠ none
  | .unread _ currentUserId doc =>
    messageUser s.zone answer.now currentUserId (unreadCount currentUserId answer.unread) doc ≠ none
  | .setListGroup _ docs => ∀ doc ∈ docs, doc.groupId ≠ none
  | .group _ _ count doc => answer.group.bind (groupUser count doc) ≠ none
  | .userSociallogin | .getUserList | .getGroupList | .unreadGroup .. => True

instance (s : Device) (answer : Answer) : ∀ t, Decidable (Builds s answer t)
  | .element .. => inferInstanceAs (Decidable (_ = false → _ ≠ none))
  | .unread .. | .group .. => inferInstanceAs (Decidable (_ ≠ none))
  | .setListGroup .. => inferInstanceAs (Decidable (∀ _ ∈ _, _))
  | .userSociallogin | .getUserList | .getGroupList | .unreadGroup .. =>
    inferInstanceAs (Decidable True)

/-- One user is logged in, a snapshot arrives after all rows of the one before it have
been added, and every row can be built. -/
def Orderly (s : Device) : Action → Prop
  | .login userId | .userSociallogin userId => userId = s.userId
  | .logout => False
  | .snapshotUsers .. => s.tasks.flatMap userDocs = []
  | .snapshotGroups .. => s.tasks.flatMap groupDocs = []
  | .resume i answer => ∀ t ∈ s.tasks[i]?, Builds s answer t
  | .appStart | .openChat .. => True

instance : ∀ s a, Decidable (Orderly s a)
  | _,.login _ | _,.userSociallogin _ => inferInstanceAs (Decidable (_ = _))
  | _,.logout => inferInstanceAs (Decidable False)
  | _,.snapshotUsers .. | _,.snapshotGroups .. => inferInstanceAs (Decidable (_ = []))
  | _,.resume .. => inferInstanceAs (Decidable (∀ _ ∈ _, _))
  | _,.appStart | _,.openChat .. => inferInstanceAs (Decidable True)

structure Fresh (userId : String) (s : Device) : Prop where
  user : s.userId = userId
  idle : Idle s
  users : s.listUser = []
  groups : s.listGroup = []

/-- The rows that are there and the ones under way are those of the latest snapshots. -/
structure Rebuilding (userId : String) (as : List Action) (s : Device) : Prop where
  user : s.userId = userId
  asker : ∀ owner asker doc, .unread owner asker doc ∈ s.tasks → asker = userId
  named : ∀ t ∈ s.tasks, Named t
  users : Worklist.InProgress (BuiltUser userId) (latestUsers as) (s.tasks.flatMap userDocs)
    s.listUser
  groups : Worklist.InProgress BuiltGroup (latestGroups as) (s.tasks.flatMap groupDocs)
    s.listGroup

/-- What the continuation of a step leaves: the documents it was to append rows for are
passed on to the steps it starts, or one row is appended. -/
structure Advanced (userId : String) (s : Device) (t : Task) (next : Device) : Prop where
  user : next.userId = s.userId
  started : ∃ tasks, next.tasks = s.tasks ++ tasks ∧
    (∀ owner asker doc, .unread owner asker doc ∈ tasks → asker = s.userId) ∧
    (∀ t ∈ tasks, Named t) ∧
    (tasks.flatMap userDocs = userDocs t ∧ next.listUser = s.listUser ∨
      ∃ doc row, userDocs t = [doc] ∧ tasks.flatMap userDocs = [] ∧ BuiltUser userId doc row ∧
        next.listUser = s.listUser ++ [row]) ∧
    (tasks.flatMap groupDocs = groupDocs t ∧ next.listGroup = s.listGroup ∨
      ∃ doc row, groupDocs t = [doc] ∧ tasks.flatMap groupDocs = [] ∧ BuiltGroup doc row ∧
        next.listGroup = s.listGroup ++ [row])

variable {userId : String} {s next : Device} {as : List Action}

theorem latestUsers_snoc (as : List Action) (a : Action) :
    latestUsers (as ++ [a]) = match a with
      | .snapshotUsers _ new => new
      | _ => latestUsers as := by
  rw [latestUsers,List.foldl_append]
  rfl

theorem latestGroups_snoc (as : List Action) (a : Action) :
    latestGroups (as ++ [a]) = match a with
      | .snapshotGroups _ new => new
      | _ => latestGroups as := by
  rw [latestGroups,List.foldl_append]
  rfl

theorem advanced_await {t : Task} {tasks : List Task}
    (asker : ∀ owner asker doc, .unread owner asker doc ∈ tasks → asker = s.userId)
    (named : ∀ t ∈ tasks, Named t) (users : tasks.flatMap userDocs = userDocs t)
    (groups : tasks.flatMap groupDocs = groupDocs t) :
    Advanced userId s t (s.await tasks) :=
  ⟨rfl,tasks,rfl,asker,named,.inl ⟨users,rfl⟩,.inl ⟨groups,rfl⟩⟩

theorem advanced_self {t : Task} (users : userDocs t = []) (groups : groupDocs t = []) :
    Advanced userId s t s :=
  ⟨rfl,[],by simp,by simp,by simp,.inl ⟨users.symm,rfl⟩,.inl ⟨groups.symm,rfl⟩⟩

theorem Advanced.listen {t : Task} (advanced : Advanced userId s t next)
    (listeners : List Listener) : Advanced userId s t {next with listeners := listeners} :=
  ⟨advanced.user,advanced.started⟩

theorem advanced_addUser {t : Task} {owner : String} {doc : RecentUser} {data : Option MessageUser}
    {zone now : Int} {count : String} (users : userDocs t = [doc]) (groups : groupDocs t = [])
    (row : data = messageUser zone now userId count doc) (built : data ≠ none) :
    Advanced userId s t (s.addUser owner data) := by
  obtain ⟨data,rfl⟩ := Option.ne_none_iff_exists'.mp built
  exact ⟨rfl,[],by simp [Device.addUser],by simp,by simp,
    .inr ⟨doc,⟨owner,data⟩,users,rfl,⟨zone,now,count,row.symm⟩,rfl⟩,.inl ⟨groups.symm,rfl⟩⟩

theorem advanced_addGroup {t : Task} {owner : String} {doc : RecentGroup} {group : Option Group}
    {count : String} (users : userDocs t = []) (groups : groupDocs t = [doc])
    (own : ∀ read ∈ group, doc.groupId = some read.id)
    (built : group.bind (groupUser count doc) ≠ none) :
    Advanced userId s t (s.addGroup owner (group.bind (groupUser count doc))) := by
  obtain ⟨data,row⟩ := Option.ne_none_iff_exists'.mp built
  obtain ⟨group,read,fits⟩ := Option.bind_eq_some_iff.mp row
  rw [row]
  exact ⟨rfl,[],by simp [Device.addGroup],by simp,by simp,.inl ⟨users.symm,rfl⟩,
    .inr ⟨doc,⟨owner,data⟩,groups,rfl,⟨group,count,own group read,fits⟩,rfl⟩⟩

theorem groupTasks_docs (s : Device) (owner : String) {docs : List RecentGroup}
    (all : ∀ doc ∈ docs, doc.groupId ≠ none) :
    (s.groupTasks owner docs).flatMap groupDocs = docs ∧
      (s.groupTasks owner docs).flatMap userDocs = [] ∧
      (∀ asked asker doc, .unread asked asker doc ∉ s.groupTasks owner docs) ∧
      ∀ t ∈ s.groupTasks owner docs, Named t := by
  induction docs with
  | nil => simp [Device.groupTasks]
  | cons doc rest ih =>
    obtain ⟨known,later⟩ := List.forall_mem_cons.mp all
    obtain ⟨groups,users,others,named⟩ := ih later
    obtain ⟨groupId,id⟩ := Option.ne_none_iff_exists'.mp known
    rw [Device.groupTasks,id]
    dsimp only
    split
    · exact ⟨congrArg (List.cons doc) groups,users,by simpa using others,
        List.forall_mem_cons.mpr ⟨id,named⟩⟩
    · exact ⟨congrArg (List.cons doc) groups,users,by simpa using others,
        List.forall_mem_cons.mpr ⟨id,named⟩⟩

theorem advanced_continued {answer : Answer} {t : Task} (user : s.userId = userId)
    (asker : ∀ owner asker doc, t = .unread owner asker doc → asker = userId)
    (named : Named t) (fits : answer.answers t = true) (builds : Builds s answer t) :
    Advanced userId s t (s.continued answer t) := by
  subst user
  cases t with
  | userSociallogin => exact advanced_await (by simp) (by simp [Named]) rfl rfl
  | getUserList =>
    have awaited : Advanced s.userId s .getUserList (s.await [.getGroupList]) :=
      advanced_await (by simp) (by simp [Named]) rfl rfl
    rw [Device.continued]
    split
    · exact awaited
    · exact awaited.listen _
  | getGroupList =>
    rw [Device.continued]
    split
    · exact advanced_self rfl rfl
    · exact Advanced.listen (advanced_self rfl rfl) _
  | element owner doc =>
    rw [Device.continued]
    split
    · refine advanced_await (fun asked asker other member => ?_) (by simp [Named]) rfl rfl
      cases List.mem_singleton.mp member
      rfl
    next unmarked => exact advanced_addUser rfl rfl rfl (builds (by simpa using unmarked))
  | unread owner currentUserId doc =>
    cases asker owner currentUserId doc rfl
    exact advanced_addUser rfl rfl rfl builds
  | setListGroup owner docs =>
    obtain ⟨groups,users,others,known⟩ := groupTasks_docs s owner builds
    exact advanced_await (fun asked asker doc member => absurd member (others asked asker doc))
      known users groups
  | unreadGroup => exact advanced_await (by simp) (List.forall_mem_singleton.mpr named) rfl rfl
  | group owner groupId count doc =>
    refine advanced_addGroup rfl rfl (fun group read => ?_) builds
    have same : group.id = groupId := by simpa [Answer.answers,Option.mem_def.mp read] using fits
    rw [same]
    exact named

theorem element_docs (owner : String) (docs : List RecentUser) :
    (docs.map (Task.element owner)).flatMap userDocs = docs ∧
      (docs.map (Task.element owner)).flatMap groupDocs = [] := by
  rw [List.flatMap_map,List.flatMap_map]
  exact ⟨List.flatMap_singleton' docs,by simp [groupDocs]⟩

theorem Rebuilding.resumed {i : Nat} {answer : Answer} {t : Task}
    (rebuilding : Rebuilding userId as s) (found : s.tasks[i]? = some t)
    (fits : answer.answers t = true) (builds : Builds s answer t) :
    Rebuilding userId (as ++ [.resume i answer])
      (Device.continued {s with tasks := s.tasks.eraseIdx i} answer t) := by
  have member := List.mem_of_getElem? found
  have advanced : Advanced userId {s with tasks := s.tasks.eraseIdx i} t
      (Device.continued {s with tasks := s.tasks.eraseIdx i} answer t) := by
    apply advanced_continued
    · exact rebuilding.user
    · rintro owner asker doc rfl
      exact rebuilding.asker owner asker doc member
    · exact rebuilding.named t member
    · exact fits
    · cases t <;> exact builds
  obtain ⟨tasks,held,asker,named,users,groups⟩ := advanced.started
  have users' := (Pool.perm_resumed found).flatMap_right userDocs
  have groups' := (Pool.perm_resumed found).flatMap_right groupDocs
  constructor
  · exact advanced.user.trans rebuilding.user
  · intro owner other doc waits
    rw [held] at waits
    rcases List.mem_append.mp waits with old | new
    · exact rebuilding.asker owner other doc (List.mem_of_mem_eraseIdx old)
    · exact (asker owner other doc new).trans rebuilding.user
  · intro other waits
    rw [held] at waits
    rcases List.mem_append.mp waits with old | new
    · exact rebuilding.named other (List.mem_of_mem_eraseIdx old)
    · exact named other new
  · rw [latestUsers_snoc,held,List.flatMap_append]
    rcases users with ⟨same,list⟩ | ⟨doc,row,own,none,built,list⟩
    · rw [list,same]
      exact rebuilding.users.perm (users'.trans List.perm_append_comm)
    · rw [list,none,List.append_nil]
      rw [List.flatMap_cons,own] at users'
      exact rebuilding.users.append users' built
  · rw [latestGroups_snoc,held,List.flatMap_append]
    rcases groups with ⟨same,list⟩ | ⟨doc,row,own,none,built,list⟩
    · rw [list,same]
      exact rebuilding.groups.perm (groups'.trans List.perm_append_comm)
    · rw [list,none,List.append_nil]
      rw [List.flatMap_cons,own] at groups'
      exact rebuilding.groups.append groups' built

theorem docs_of_unowned {t : Task} (unowned : t.owner = none) :
    userDocs t = [] ∧ groupDocs t = [] := by
  cases t with
  | userSociallogin | getUserList | getGroupList => exact ⟨rfl,rfl⟩
  | element | unread | setListGroup | unreadGroup | group => contradiction

theorem Rebuilding.await {a : Action} {t : Task} (rebuilding : Rebuilding userId as s)
    (unowned : t.owner = none) (silent : latestUsers (as ++ [a]) = latestUsers as ∧
      latestGroups (as ++ [a]) = latestGroups as) : Rebuilding userId (as ++ [a]) (s.await [t]) := by
  have none := docs_of_unowned unowned
  refine ⟨rebuilding.user,fun owner asker doc member => ?_,?_,?_,?_⟩
  · rcases List.mem_append.mp member with old | new
    · exact rebuilding.asker owner asker doc old
    · cases List.mem_singleton.mp new
      contradiction
  · apply Pool.forall_append rebuilding.named
    cases t <;> trivial
  · simpa [silent.1,Device.await,none.1] using rebuilding.users
  · simpa [silent.2,Device.await,none.2] using rebuilding.groups

theorem rebuilding_step {a : Action} (rebuilding : Rebuilding userId as s) (orderly : Orderly s a)
    (stepped : s.step a = some next) : Rebuilding userId (as ++ [a]) next := by
  have user := rebuilding.user
  cases a with
  | appStart =>
    cases Option.some.inj stepped
    exact rebuilding.await rfl ⟨latestUsers_snoc as _,latestGroups_snoc as _⟩
  | login id | userSociallogin id =>
    cases orderly
    cases Option.some.inj stepped
    exact rebuilding.await rfl ⟨latestUsers_snoc as _,latestGroups_snoc as _⟩
  | logout => exact orderly.elim
  | openChat peerId now =>
    cases Option.some.inj stepped
    exact ⟨user,rebuilding.asker,rebuilding.named,by rw [latestUsers_snoc]; exact rebuilding.users,
      by rw [latestGroups_snoc]; exact rebuilding.groups⟩
  | snapshotUsers listener docs =>
    rw [Device.step] at stepped
    split at stepped
    next owner _ =>
      cases Option.some.inj stepped
      have started := element_docs owner docs
      refine ⟨user,fun asked asker doc member => ?_,fun t member => ?_,?_,?_⟩
      · rcases List.mem_append.mp member with old | new
        · exact rebuilding.asker asked asker doc old
        · simp at new
      · rcases List.mem_append.mp member with old | new
        · exact rebuilding.named t old
        · obtain ⟨doc,_,rfl⟩ := List.mem_map.mp new
          trivial
      · rw [latestUsers_snoc]
        dsimp only [Device.setList,Device.await]
        rw [List.flatMap_append,orderly,started.1]
        exact Worklist.inProgress_start docs
      · rw [latestGroups_snoc]
        dsimp only [Device.setList,Device.await]
        rw [List.flatMap_append,started.2,List.append_nil]
        exact rebuilding.groups
    next => contradiction
  | snapshotGroups listener docs =>
    rw [Device.step] at stepped
    split at stepped
    next owner _ =>
      cases Option.some.inj stepped
      refine ⟨user,fun asked asker doc member => ?_,Pool.forall_append rebuilding.named trivial,?_,?_⟩
      · rcases List.mem_append.mp member with old | new
        · exact rebuilding.asker asked asker doc old
        · simp at new
      · rw [latestUsers_snoc]
        dsimp only [Device.setListGroup,Device.await]
        rw [List.flatMap_append]
        simpa [userDocs] using rebuilding.users
      · rw [latestGroups_snoc]
        dsimp only [Device.setListGroup,Device.await]
        rw [List.flatMap_append,orderly]
        simpa [groupDocs] using Worklist.inProgress_start docs
    next => contradiction
  | resume i answer =>
    obtain ⟨t,found,fits,rfl⟩ := resume_cases stepped
    exact rebuilding.resumed found fits (orderly t found)

theorem Rebuilding.rebuilt (rebuilding : Rebuilding userId as s) (quiet : Idle s) :
    Rebuilt userId as s := by
  have users : s.tasks.flatMap userDocs = [] :=
    List.flatMap_eq_nil_iff.mpr fun t member => (docs_of_unowned (quiet t member)).1
  have groups : s.tasks.flatMap groupDocs = [] :=
    List.flatMap_eq_nil_iff.mpr fun t member => (docs_of_unowned (quiet t member)).2
  constructor
  · exact Worklist.InProgress.complete (users ▸ rebuilding.users)
  · exact Worklist.InProgress.complete (groups ▸ rebuilding.groups)

/-- When no snapshot overtakes the rebuild of the one before it, the lists end up as the
latest snapshots. -/
theorem inbox_rebuilt {start : Device} (fresh : Fresh userId start)
    (run : Run Device.step Orderly start as s) (quiet : Idle s) : Rebuilt userId as s := by
  apply Rebuilding.rebuilt _ quiet
  apply run.traced (Rebuilding userId)
  · have users : start.tasks.flatMap userDocs = [] :=
      List.flatMap_eq_nil_iff.mpr fun t member => (docs_of_unowned (fresh.idle t member)).1
    have groups : start.tasks.flatMap groupDocs = [] :=
      List.flatMap_eq_nil_iff.mpr fun t member => (docs_of_unowned (fresh.idle t member)).2
    refine ⟨fresh.user,fun owner asker doc member => ?_,fun t member => ?_,?_,?_⟩
    · exact absurd (fresh.idle _ member) (by simp [Task.owner])
    · have unowned := fresh.idle t member
      cases t with
      | userSociallogin | getUserList | getGroupList => trivial
      | element | unread | setListGroup | unreadGroup | group => contradiction
    · rw [users,fresh.users]
      exact Worklist.inProgress_start []
    · rw [groups,fresh.groups]
      exact Worklist.inProgress_start []
  · exact fun _ _ _ _ => rebuilding_step

def opened : List Action := [.appStart,.resume 0 {},.resume 0 {}]

theorem inbox_rebuilt_twice : ∃ s,
    Run Device.step Orderly (.started 0 "1" []) (opened ++ [.snapshotUsers 0
      [SessionInbox.document],.resume 0 {},.snapshotUsers 0 [SessionInbox.document],.resume 0 {}]) s ∧
      s.listUser.length = 1 ∧ Rebuilt "1" (opened ++ [.snapshotUsers 0 [SessionInbox.document],
        .resume 0 {},.snapshotUsers 0 [SessionInbox.document],.resume 0 {}]) s := by
  obtain ⟨s,run,shown,quiet⟩ : ∃ s,
      Run Device.step Orderly (.started 0 "1" []) (opened ++ [.snapshotUsers 0
        [SessionInbox.document],.resume 0 {},.snapshotUsers 0 [SessionInbox.document],
        .resume 0 {}]) s ∧ s.listUser.length = 1 ∧ Idle s :=
    Run.exists_of_exec (by decide)
  exact ⟨s,run,shown,inbox_rebuilt ⟨rfl,by simp [Device.started,Idle],rfl,rfl⟩ run quiet⟩

/-- The second snapshot arrives while the closure of the first one awaits the
preferences: the only conversation is listed twice. -/
theorem inbox_of_overtaken_rebuild : ∃ s,
    Run Device.step anyStep (.started 0 "1" []) (opened ++ [.snapshotUsers 0
      [SessionInbox.document],.snapshotUsers 0 [SessionInbox.document],.resume 0 {},
      .resume 0 {}]) s ∧ Idle s ∧ ¬ Rebuilt "1" (opened ++ [.snapshotUsers 0
        [SessionInbox.document],.snapshotUsers 0 [SessionInbox.document],.resume 0 {},
        .resume 0 {}]) s := by
  obtain ⟨s,run,quiet,twice⟩ : ∃ s,
      Run Device.step anyStep (.started 0 "1" []) (opened ++ [.snapshotUsers 0
        [SessionInbox.document],.snapshotUsers 0 [SessionInbox.document],.resume 0 {},
        .resume 0 {}]) s ∧ Idle s ∧ s.listUser.length = 2 :=
    Run.exists_of_exec (by decide)
  refine ⟨s,run,quiet,fun rebuilt => ?_⟩
  have once := rebuilt.users.length
  rw [twice] at once
  exact absurd once (by decide)

end Neuro.InboxRebuild
