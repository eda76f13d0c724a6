import Neuro.RecentGroups

/-! The members of a group beside the documents under `recentgroups`: when the two
agree once every call has completed. -/
namespace Neuro.GroupMembers
open Neuro.Lib GroupChatScreen InboxEntry RecentGroups

def Member (s : Cloud) (userId groupId : String) : Prop :=
  ∃ group ∈ s.groups groupId, ∃ m ∈ group.members, m.id = userId

instance (s : Cloud) (userId groupId : String) : Decidable (Member s userId groupId) :=
  inferInstanceAs (Decidable (∃ _ ∈ _, ∃ _ ∈ _, _))

def Creates (userId groupId : String) : Call → Prop
  | .setGroup group => group.id = groupId ∧ ∃ m ∈ group.members, m.id = userId
  | _ => False

instance (userId groupId : String) : ∀ call, Decidable (Creates userId groupId call)
  | .setGroup _ => inferInstanceAs (Decidable (_ ∧ ∃ _ ∈ _, _))
  | .setRecent _ | .arrayUnion .. | .arrayRemove .. | .deleteRecent _ | .get .. | .update ..
  | .set .. => inferInstanceAs (Decidable False)

/-- The user is in the group document or in one that is being created. -/
def Entry (s : Cloud) (userId groupId : String) : Prop :=
  Member s userId groupId ∨ ∃ call ∈ s.calls, Creates userId groupId call

instance (s : Cloud) (userId groupId : String) : Decidable (Entry s userId groupId) :=
  inferInstanceAs (Decidable (_ ∨ ∃ _ ∈ _, _))

/-- A call that follows a change of the members is still to write the document. -/
def Pending (p : Path) (calls : List Call) : Prop := .setRecent p ∈ calls ∨ .deleteRecent p ∈ calls

instance (p : Path) (calls : List Call) : Decidable (Pending p calls) :=
  inferInstanceAs (Decidable (_ ∨ _))

/-- No user has two entries, and a user has one exactly when the document exists. -/
structure Indexed (s : Cloud) : Prop where
  distinct : ∀ groupId, ∀ group ∈ s.groups groupId, (group.members.map FirebaseUser.id).Nodup
  index : ∀ userId groupId, Member s userId groupId ↔ s.recentgroups (userId,groupId) ≠ none

/-- The user a call puts into a group or writes a document for, and the group. -/
def adds : Call → Option Path
  | .arrayUnion user groupId => some (user.id,groupId)
  | .setRecent p | .get p _ | .update p _ | .set p _ => some p
  | .setGroup _ | .arrayRemove .. | .deleteRecent _ => none

/-- The user a call takes out of a group or deletes the document of, and the group. -/
def removes : Call → Option Path
  | .arrayRemove user groupId => some (user.id,groupId)
  | .deleteRecent p => some p
  | .setGroup _ | .setRecent _ | .arrayUnion .. | .get .. | .update .. | .set .. => none

def about : Call → String
  | .setGroup group => group.id
  | .arrayUnion _ groupId | .arrayRemove _ groupId => groupId
  | .setRecent p | .deleteRecent p | .get p _ | .update p _ | .set p _ => p.2

/-- A map that is added or removed is the one the group holds for this user, if it holds any;
and the row of a removal is still the one of this user when its update completes. -/
def Fits (s : Cloud) (shown : Option String) : Call → Prop
  | .arrayUnion user groupId => ∀ group ∈ s.groups groupId, ∀ m ∈ group.members,
    m.id = user.id → m = user
  | .arrayRemove user groupId => shown = some user.id ∧
    ∀ group ∈ s.groups groupId, ∀ m ∈ group.members, m.id = user.id → m = user
  | .setGroup _ | .setRecent _ | .deleteRecent _ | .get .. | .update .. | .set .. => True

/-- What may fail: no creation of a group, and no write that is to create a document nor a
deletion of one that is there. -/
def Spared (s : Cloud) : Call → Prop
  | .setGroup _ => False
  | .setRecent p => s.recentgroups p ≠ none
  | .deleteRecent p => s.recentgroups p = none
  | .arrayUnion .. | .arrayRemove .. | .get .. | .update .. | .set .. => True

/-- The server gives a new group an id of its own. An accept starts while no removal of this user
is under way, a removal while nothing that adds the user is, and a send with a list of users who
are members and of whom no removal is under way. -/
def Steady (s : Cloud) : Action → Prop
  | .createGroup _ groupId .. => s.groups groupId = none ∧ ∀ call ∈ s.calls, about call ≠ groupId
  | .acceptRequest account groupId => ∀ call ∈ s.calls, removes call ≠ some (account.id,groupId)
  | .removeMember member groupId => ∀ call ∈ s.calls, adds call ≠ some (member.id,groupId)
  | .onSendMessage index _ _ => ∀ screen ∈ s.screens[index]?, ∀ m ∈ screen.groupUser.listMember,
    Entry s m.id screen.groupUser.id ∧
      ∀ call ∈ s.calls, removes call ≠ some (m.id,screen.groupUser.id)
  | .resume i _ shown => ∀ call ∈ s.calls[i]?, Fits s shown call
  | .fail i => ∀ call ∈ s.calls[i]?, Spared s call
  | .openGroupChat _ => True

instance (s : Cloud) (shown : Option String) : ∀ call, Decidable (Fits s shown call)
  | .arrayUnion .. => inferInstanceAs (Decidable (∀ _ ∈ _, ∀ _ ∈ _, _))
  | .arrayRemove .. => inferInstanceAs (Decidable (_ ∧ ∀ _ ∈ _, ∀ _ ∈ _, _))
  | .setGroup _ | .setRecent _ | .deleteRecent _ | .get .. | .update .. | .set .. =>
    inferInstanceAs (Decidable True)

instance (s : Cloud) : ∀ call, Decidable (Spared s call)
  | .setGroup _ => inferInstanceAs (Decidable False)
  | .setRecent _ => inferInstanceAs (Decidable (_ ≠ none))
  | .deleteRecent _ => inferInstanceAs (Decidable (_ = none))
  | .arrayUnion .. | .arrayRemove .. | .get .. | .update .. | .set .. =>
    inferInstanceAs (Decidable True)

instance : ∀ s a, Decidable (Steady s a)
  | _,.createGroup .. => inferInstanceAs (Decidable (_ = none ∧ ∀ _ ∈ _, _))
  | _,.acceptRequest .. | _,.removeMember .. => inferInstanceAs (Decidable (∀ _ ∈ _, _))
  | _,.onSendMessage .. => inferInstanceAs (Decidable (∀ _ ∈ _, ∀ _ ∈ _, _ ∧ ∀ _ ∈ _, _))
  | _,.resume .. | _,.fail _ => inferInstanceAs (Decidable (∀ _ ∈ _, _))
  | _,.openGroupChat _ => inferInstanceAs (Decidable True)

def created : Call → Option String
  | .setGroup group => some group.id
  | .setRecent _ | .arrayUnion .. | .arrayRemove .. | .deleteRecent _ | .get .. | .update ..
  | .set .. => none

/-- The group documents: what they hold and what the creations to come will write. -/
structure Sound (s : Cloud) : Prop where
  distinct : ∀ groupId, ∀ group ∈ s.groups groupId, (group.members.map FirebaseUser.id).Nodup
  single : ∀ group, .setGroup group ∈ s.calls → (group.members.map FirebaseUser.id).Nodup
  fresh : ∀ group, .setGroup group ∈ s.calls → s.groups group.id = none
  once : (s.calls.filterMap created).Nodup

def Settled (s : Cloud) (p : Path) : Prop :=
  (s.recentgroups p ≠ none ↔ Entry s p.1 p.2) ∨ Pending p s.calls

structure Tracked (s : Cloud) : Prop where
  sound : Sound s
  settled : ∀ p, Settled s p

/-- No user is added to a group and taken out of it at one time. -/
def Apart (calls : List Call) : Prop :=
  ∀ c ∈ calls, ∀ p, adds c = some p → ∀ d ∈ calls, removes d ≠ some p

/-- A document is written for a member and deleted for one who is none. -/
def Placed (s : Cloud) : Call → Prop
  | .setRecent p | .get p _ | .update p _ | .set p _ => Entry s p.1 p.2
  | .deleteRecent p => ¬ Entry s p.1 p.2
  | .setGroup _ | .arrayUnion .. | .arrayRemove .. => True

/-- The calls under way. -/
structure Parted (s : Cloud) : Prop where
  placed : ∀ call ∈ s.calls, Placed s call
  apart : Apart s.calls

variable {s t : Cloud} {p : Path}

theorem Tracked.indexed (tracked : Tracked s) (quiet : s.calls = []) : Indexed s where
  distinct := tracked.sound.distinct
  index userId groupId := by
    rcases tracked.settled (userId,groupId) with agree | pending
    · simpa [Entry,quiet] using agree.symm
    · simp [Pending,quiet] at pending

theorem Settled.transfer (settled : Settled s p)
    (document : t.recentgroups p ≠ none ↔ s.recentgroups p ≠ none)
    (entry : Entry t p.1 p.2 ↔ Entry s p.1 p.2) (pending : Pending p s.calls → Pending p t.calls) :
    Settled t p := by
  rcases settled with agree | waiting
  · exact .inl (document.trans (agree.trans entry.symm))
  · exact .inr (pending waiting)

theorem creates_eq_none {userId groupId : String} {call : Call} (other : created call = none) :
    ¬ Creates userId groupId call := by
  cases call with
  | setGroup => simp [created] at other
  | setRecent | arrayUnion | arrayRemove | deleteRecent | get | update | set => exact id

section Await
variable {calls : List Call} (later : ∀ call ∈ calls, created call = none)
include later

theorem Sound.await (sound : Sound s) : Sound (s.await calls) := by
  have known (group : Group) (member : .setGroup group ∈ s.calls ++ calls) :
      .setGroup group ∈ s.calls := by
    refine (List.mem_append.mp member).resolve_right fun new => ?_
    exact absurd (later _ new) (by simp [created])
  refine ⟨sound.distinct,fun group member => sound.single group (known group member),
    fun group member => sound.fresh group (known group member),?_⟩
  have new : calls.filterMap created = [] := List.filterMap_eq_nil_iff.mpr later
  dsimp only [Cloud.await]
  rw [List.filterMap_append,new,List.append_nil]
  exact sound.once

theorem entry_await (userId groupId : String) :
    Entry (s.await calls) userId groupId ↔ Entry s userId groupId := by
  apply or_congr_right
  constructor
  · rintro ⟨call,member,creates⟩
    refine ⟨call,(List.mem_append.mp member).resolve_right fun new => ?_,creates⟩
    exact creates_eq_none (later call new) creates
  · rintro ⟨call,member,creates⟩
    exact ⟨call,List.mem_append_left _ member,creates⟩

theorem Tracked.await (tracked : Tracked s) : Tracked (s.await calls) where
  sound := tracked.sound.await later
  settled p := by
    apply Settled.transfer (tracked.settled p)
    · exact Iff.rfl
    · exact entry_await later p.1 p.2
    · exact Or.imp (List.mem_append_left _) (List.mem_append_left _)

end Await

section Members
variable {groupId userId : String} {group : Group} {list : List FirebaseUser} {next : List Call}
  (stored : s.groups groupId = some group)
  (others : ∀ id, id ≠ userId → ((∃ m ∈ list, m.id = id) ↔ ∃ m ∈ group.members, m.id = id))
include stored others

/-- When the members of one group change for one user, nobody else is concerned. -/
theorem entry_members (later : ∀ call ∈ next, created call = none) (other : p ≠ (userId,groupId)) :
    Entry ({s with groups := s.groups.set groupId {group with members := list}}.await next)
      p.1 p.2 ↔ Entry s p.1 p.2 := by
  rw [entry_await later]
  apply or_congr_left
  unfold Member
  dsimp only
  by_cases same : p.2 = groupId
  · have apart : p.1 ≠ userId := fun equal => other (Prod.ext equal same)
    simpa [same,stored] using others p.1 apart
  · rw [Store.set_of_ne same]

/-- The members of one group change for one user, and the document of this user will
follow. -/
theorem Tracked.members {next : Call} (tracked : Tracked s)
    (distinct : (list.map FirebaseUser.id).Nodup)
    (follows : next = .setRecent (userId,groupId) ∨ next = .deleteRecent (userId,groupId)) :
    Tracked ({s with groups := s.groups.set groupId {group with members := list}}.await
      [next]) := by
  have later : ∀ call ∈ [next], created call = none := by
    rcases follows with rfl | rfl <;> simp [created]
  constructor
  · apply Sound.await later
    refine ⟨fun id other held => ?_,tracked.sound.single,fun other member => ?_,tracked.sound.once⟩
    · by_cases same : id = groupId
      · rw [same,Option.mem_def] at held
        cases Option.some.inj (held.symm.trans (Store.set_self _))
        exact distinct
      · rw [Option.mem_def] at held
        exact tracked.sound.distinct id other ((Store.set_of_ne same _).symm.trans held)
    · have unwritten := tracked.sound.fresh other member
      have apart : other.id ≠ groupId := by
        intro same
        rw [same,stored] at unwritten
        contradiction
      exact (Store.set_of_ne apart _).trans unwritten
  · intro p
    by_cases own : p = (userId,groupId)
    · subst own
      rcases follows with rfl | rfl
      · exact .inr (.inl (by simp [Cloud.await]))
      · exact .inr (.inr (by simp [Cloud.await]))
    · apply Settled.transfer (tracked.settled p)
      · exact Iff.rfl
      · exact entry_members stored others later own
      · exact Or.imp (List.mem_append_left _) (List.mem_append_left _)

end Members

section Resumed
variable {i : Nat} {call : Call}

theorem Sound.rest (sound : Sound s) (i : Nat) : Sound {s with calls := s.calls.eraseIdx i} where
  distinct := sound.distinct
  single group member := sound.single group (List.mem_of_mem_eraseIdx member)
  fresh group member := sound.fresh group (List.mem_of_mem_eraseIdx member)
  once := sound.once.sublist ((List.eraseIdx_sublist ..).filterMap created)

variable (found : s.calls[i]? = some call)
include found

theorem entry_rest (other : created call = none) (p : Path) :
    (Member s p.1 p.2 ∨ ∃ c ∈ s.calls.eraseIdx i, Creates p.1 p.2 c) ↔ Entry s p.1 p.2 := by
  apply or_congr_right
  constructor
  · rintro ⟨c,member,creates⟩
    exact ⟨c,List.mem_of_mem_eraseIdx member,creates⟩
  · rintro ⟨c,member,creates⟩
    rcases (Pool.mem_resumed found).mp member with rfl | still
    · exact absurd creates (creates_eq_none other)
    · exact ⟨c,still,creates⟩

theorem Tracked.resumed (tracked : Tracked s) (other : created call = none)
    {docs : Store Path RecentGroup} (q : Path) (frame : ∀ p, p ≠ q → docs p = s.recentgroups p)
    (own : ∀ p, call = .setRecent p ∨ call = .deleteRecent p → p = q)
    (settled : (docs q ≠ none ↔ Entry s q.1 q.2) ∨ Pending q (s.calls.eraseIdx i)) :
    Tracked {s with recentgroups := docs,calls := s.calls.eraseIdx i} where
  sound := {tracked.sound.rest i with}
  settled p := by
    have entry := entry_rest found other p
    by_cases same : p = q
    · subst same
      exact settled.imp_left fun agree => agree.trans entry.symm
    · apply Settled.transfer (tracked.settled p)
      · dsimp only
        rw [frame p same]
      · exact entry
      · apply Or.imp
        · intro member
          exact ((Pool.mem_resumed found).mp member).resolve_left
            fun equal => same (own p (.inl equal.symm))
        · intro member
          exact ((Pool.mem_resumed found).mp member).resolve_left
            fun equal => same (own p (.inr equal.symm))

theorem Tracked.write (tracked : Tracked s) (other : created call = none) {q : Path}
    (doc : RecentGroup) (own : ∀ p, call = .setRecent p ∨ call = .deleteRecent p → p = q)
    (agrees : Entry s q.1 q.2 ∨ Pending q (s.calls.eraseIdx i)) :
    Tracked (Cloud.write {s with calls := s.calls.eraseIdx i} q doc) := by
  apply tracked.resumed found other q (fun p apart => Store.set_of_ne apart doc) own
  exact agrees.imp_left fun entry => iff_of_true (by simp) entry

theorem Tracked.rest (tracked : Tracked s) (other : created call = none)
    (reads : ∀ p, call ≠ .setRecent p ∧ call ≠ .deleteRecent p) :
    Tracked {s with calls := s.calls.eraseIdx i} where
  sound := tracked.sound.rest i
  settled p := by
    apply Settled.transfer (tracked.settled p)
    · exact Iff.rfl
    · exact entry_rest found other p
    · apply Or.imp
      · exact fun member => ((Pool.mem_resumed found).mp member).resolve_left (reads p).1.symm
      · exact fun member => ((Pool.mem_resumed found).mp member).resolve_left (reads p).2.symm

omit found in
theorem entry_setGroup {group : Group} (sound : Sound s)
    (found : s.calls[i]? = some (.setGroup group)) (p : Path) :
    Entry {s with groups := s.groups.set group.id group,calls := s.calls.eraseIdx i} p.1 p.2 ↔
      Entry s p.1 p.2 := by
  have empty := sound.fresh group (List.mem_of_getElem? found)
  unfold Entry Member
  simp only [Pool.mem_resumed found]
  by_cases same : p.2 = group.id
  · simp [same,empty,Creates,or_and_right,exists_or]
  · rw [Store.set_of_ne same]
    simp [Creates,or_and_right,exists_or,Ne.symm same]

omit found in
theorem Tracked.setGroup {group : Group} (tracked : Tracked s)
    (found : s.calls[i]? = some (.setGroup group)) :
    Tracked {s with groups := s.groups.set group.id group,calls := s.calls.eraseIdx i} := by
  have member := List.mem_of_getElem? found
  have once : group.id ∉ (s.calls.eraseIdx i).filterMap created ∧
      ((s.calls.eraseIdx i).filterMap created).Nodup := by
    have distinct := ((Pool.perm_resumed found).filterMap created).nodup_iff.mp tracked.sound.once
    exact List.nodup_cons.mp distinct
  have apart (other : Group) (later : .setGroup other ∈ s.calls.eraseIdx i) :
      other.id ≠ group.id := by
    intro same
    exact once.1 (List.mem_filterMap.mpr ⟨_,later,congrArg some same⟩)
  constructor
  · refine ⟨fun id other held => ?_,fun other later =>
      tracked.sound.single other (List.mem_of_mem_eraseIdx later),fun other later => ?_,once.2⟩
    · by_cases same : id = group.id
      · rw [same,Option.mem_def] at held
        cases Option.some.inj (held.symm.trans (Store.set_self _))
        exact tracked.sound.single group member
      · rw [Option.mem_def] at held
        exact tracked.sound.distinct id other ((Store.set_of_ne same _).symm.trans held)
    · exact (Store.set_of_ne (apart other later) _).trans
        (tracked.sound.fresh other (List.mem_of_mem_eraseIdx later))
  · intro p
    apply Settled.transfer (tracked.settled p)
    · exact Iff.rfl
    · exact entry_setGroup tracked.sound found p
    · apply Or.imp
      · exact fun waits => ((Pool.mem_resumed found).mp waits).resolve_left (by simp)
      · exact fun waits => ((Pool.mem_resumed found).mp waits).resolve_left (by simp)

end Resumed

section Create
variable {group : Group} {admin : FirebaseUser} (members : group.members = [admin])
include members

theorem entry_createGroup (other : p ≠ (admin.id,group.id)) :
    Entry (s.await [.setGroup group,.setRecent (admin.id,group.id)]) p.1 p.2 ↔
      Entry s p.1 p.2 := by
  have apart : ¬ Creates p.1 p.2 (.setGroup group) := by
    rintro ⟨same,m,member,id⟩
    rw [members,List.mem_singleton] at member
    exact other (Prod.ext (member ▸ id.symm) same.symm)
  have later : ¬ Creates p.1 p.2 (.setRecent (admin.id,group.id)) := id
  unfold Entry Cloud.await Member
  simp [or_and_right,exists_or,apart,later]

theorem Tracked.createGroup (tracked : Tracked s) (empty : s.groups group.id = none)
    (unused : ∀ call ∈ s.calls, about call ≠ group.id) :
    Tracked (s.await [.setGroup group,.setRecent (admin.id,group.id)]) := by
  constructor
  · refine ⟨tracked.sound.distinct,fun other member => ?_,fun other member => ?_,?_⟩
    · rcases List.mem_append.mp member with old | new
      · exact tracked.sound.single other old
      · have same : other = group := by simpa using new
        simp [same,members]
    · rcases List.mem_append.mp member with old | new
      · exact tracked.sound.fresh other old
      · have same : other = group := by simpa using new
        rw [same]
        exact empty
    · dsimp only [Cloud.await]
      rw [List.filterMap_append,List.nodup_append]
      refine ⟨tracked.sound.once,by simp [List.filterMap_cons,created],?_⟩
      rintro a old b new rfl
      obtain ⟨call,member,id⟩ := List.mem_filterMap.mp old
      have same : a = group.id := by simpa [created] using new
      cases call with
      | setGroup created => exact unused _ member ((Option.some.inj id).trans same)
      | setRecent | arrayUnion | arrayRemove | deleteRecent | get | update | set => contradiction
  · intro p
    by_cases own : p = (admin.id,group.id)
    · exact .inr (.inl (by simp [Cloud.await,own]))
    · apply Settled.transfer (tracked.settled p)
      · exact Iff.rfl
      · exact entry_createGroup members own
      · exact Or.imp (List.mem_append_left _) (List.mem_append_left _)

end Create

section Union
variable {user : FirebaseUser} {groupId : String} {group : Group}

/-- Nobody with the id of the map is in the list, or the list holds this very map. -/
theorem nodup_union (own : ∀ m ∈ group.members, m.id = user.id → m = user)
    (distinct : (group.members.map FirebaseUser.id).Nodup) :
    ((if user ∈ group.members then group.members else group.members ++ [user]).map
      FirebaseUser.id).Nodup := by
  split
  · exact distinct
  next absent =>
    rw [List.map_append,List.nodup_append]
    refine ⟨distinct,by simp,?_⟩
    rintro a old b new rfl
    obtain ⟨m,member,id⟩ := List.mem_map.mp old
    have same : m.id = user.id := id.trans (by simpa using new)
    exact absurd (own m member same ▸ member) absent

theorem union_others (id : String) (other : id ≠ user.id) :
    (∃ m ∈ if user ∈ group.members then group.members else group.members ++ [user], m.id = id) ↔
      ∃ m ∈ group.members, m.id = id := by
  split
  · rfl
  · simp [or_and_right,exists_or,Ne.symm other]

theorem remove_others (id : String) (other : id ≠ user.id) :
    (∃ m ∈ group.members.filter (· ≠ user), m.id = id) ↔ ∃ m ∈ group.members, m.id = id := by
  constructor
  · rintro ⟨m,member,same⟩
    exact ⟨m,(List.mem_filter.mp member).1,same⟩
  · rintro ⟨m,member,rfl⟩
    refine ⟨m,List.mem_filter.mpr ⟨member,?_⟩,rfl⟩
    simpa using fun same : m = user => other (congrArg FirebaseUser.id same)

end Union

theorem Tracked.continued {i : Nat} {now : Int} {shown : Option String} {call : Call}
    (tracked : Tracked s) (found : s.calls[i]? = some call) (placed : Placed s call)
    (fits : Fits s shown call) :
    Tracked (Cloud.continued {s with calls := s.calls.eraseIdx i} now shown call) := by
  cases call with
  | setGroup group => exact tracked.setGroup found
  | setRecent q =>
    apply tracked.write found rfl _ _ (.inl placed)
    rintro p (same | same)
    · exact (Call.setRecent.inj same).symm
    · contradiction
  | set q map =>
    apply tracked.write found rfl _ _ (.inl placed)
    rintro p (same | same) <;> contradiction
  | deleteRecent q =>
    apply tracked.resumed found rfl q (fun p apart => Store.delete_of_ne apart) _ _
    · rintro p (same | same)
      · contradiction
      · exact (Call.deleteRecent.inj same).symm
    · exact .inl (iff_of_false (by simp) placed)
  | get q map =>
    apply Tracked.await
    · intro c new
      rw [List.mem_singleton.mp new]
      split <;> rfl
    · exact tracked.rest found rfl (by simp)
  | update q map =>
    have rest : Tracked {s with calls := s.calls.eraseIdx i} := tracked.rest found rfl (by simp)
    rw [Cloud.continued]
    split
    next docs updated =>
      obtain ⟨doc,stored,rfl⟩ := Store.update_eq_some.mp updated
      dsimp only at stored
      refine ⟨{rest.sound with},fun p => (rest.settled p).transfer ?_ Iff.rfl id⟩
      by_cases same : p = q
      · subst same
        exact iff_of_true (by simp) (by simp [stored])
      · dsimp only
        rw [Store.set_of_ne same]
    next => exact rest
  | arrayUnion user groupId =>
    have rest : Tracked {s with calls := s.calls.eraseIdx i} := tracked.rest found rfl (by simp)
    rw [Cloud.continued,Cloud.updateMembers]
    split
    next group stored =>
      have distinct := tracked.sound.distinct groupId group stored
      exact rest.members stored union_others (nodup_union (fits group stored) distinct) (.inl rfl)
    next => exact rest
  | arrayRemove user groupId =>
    have rest : Tracked {s with calls := s.calls.eraseIdx i} := tracked.rest found rfl (by simp)
    obtain ⟨rfl,_⟩ := fits
    rw [Cloud.continued,Cloud.updateMembers]
    split
    next group stored =>
      have distinct := tracked.sound.distinct groupId group stored
      exact rest.members stored remove_others (distinct.sublist (List.filter_sublist.map _))
        (.inr rfl)
    next => exact rest

theorem tracked_step {a : Action} (tracked : Tracked s) (parted : Parted s) (steady : Steady s a)
    (stepped : s.step a = some t) : Tracked t := by
  cases a with
  | createGroup admin groupId groupName groupImg groupTopic =>
    cases Option.some.inj stepped
    let user : FirebaseUser := ⟨admin.id,admin.name,admin.image,true⟩
    let group : Group := ⟨groupId,groupName,groupImg,groupTopic,[user]⟩
    exact Tracked.createGroup (rfl : group.members = [user]) tracked steady.1 steady.2
  | acceptRequest | removeMember =>
    cases Option.some.inj stepped
    exact tracked.await (by simp [created])
  | openGroupChat =>
    cases Option.some.inj stepped
    exact ⟨{tracked.sound with},tracked.settled⟩
  | onSendMessage index message now =>
    obtain ⟨screen,_,rfl⟩ := Option.map_eq_some_iff.mp stepped
    obtain ⟨calls,sent,gets⟩ := onSendMessage_gets s screen message now
    rw [sent]
    apply tracked.await
    intro call member
    obtain ⟨m,_,rfl⟩ := gets call member
    rfl
  | resume i now shown =>
    obtain ⟨call,found,rfl⟩ := Option.map_eq_some_iff.mp stepped
    exact tracked.continued found (parted.placed call (List.mem_of_getElem? found))
      (steady call found)
  | fail i =>
    obtain ⟨call,found,rfl⟩ := Option.map_eq_some_iff.mp stepped
    have placed := parted.placed call (List.mem_of_getElem? found)
    have spared := steady call found
    cases call with
    | setGroup => exact spared.elim
    | setRecent q =>
      apply tracked.resumed found rfl q (fun _ _ => rfl) _ (.inl (iff_of_true spared placed))
      rintro p (same | same)
      · exact (Call.setRecent.inj same).symm
      · contradiction
    | deleteRecent q =>
      have agree : s.recentgroups q ≠ none ↔ Entry s q.1 q.2 :=
        iff_of_false (not_not_intro spared) placed
      apply tracked.resumed found rfl q (fun _ _ => rfl) _ (.inl agree)
      rintro p (same | same)
      · contradiction
      · exact (Call.deleteRecent.inj same).symm
    | arrayUnion | arrayRemove | get | update | set => exact tracked.rest found rfl (by simp)

/-! Which calls are under way together. -/

section Apart
variable {calls new : List Call} (apart : Apart calls)
include apart

theorem Apart.subset (less : new ⊆ calls) : Apart new :=
  fun c member p added d other => apart c (less member) p added d (less other)

theorem Apart.adding (neutral : ∀ c ∈ new, removes c = none)
    (free : ∀ c ∈ new, ∀ p, adds c = some p → ∀ d ∈ calls, removes d ≠ some p) :
    Apart (calls ++ new) := by
  intro c member p added d other
  rcases List.mem_append.mp other with old | late
  · rcases List.mem_append.mp member with early | late
    · exact apart c early p added d old
    · exact free c late p added d old
  · rw [neutral d late]
    exact nofun

theorem Apart.removing (neutral : ∀ c ∈ new, adds c = none)
    (free : ∀ d ∈ new, ∀ p, removes d = some p → ∀ c ∈ calls, adds c ≠ some p) :
    Apart (calls ++ new) := by
  intro c member p added d other removed
  rcases List.mem_append.mp member with old | late
  · rcases List.mem_append.mp other with early | late
    · exact apart c old p added d early removed
    · exact free d late p removed c old added
  · rw [neutral c late] at added
    contradiction

end Apart

section Placed
variable {c : Call} {q : Path}

theorem Placed.transfer (placed : Placed s c)
    (same : ∀ p, adds c = some p ∨ removes c = some p → (Entry t p.1 p.2 ↔ Entry s p.1 p.2)) :
    Placed t c := by
  cases c with
  | setRecent p | get p map | update p map | set p map => exact (same p (.inl rfl)).mpr placed
  | deleteRecent p => exact mt (same p (.inr rfl)).mp placed
  | setGroup | arrayUnion | arrayRemove => trivial

variable (others : ∀ p, p ≠ q → (Entry t p.1 p.2 ↔ Entry s p.1 p.2))
include others

/-- A user who comes in disturbs the calls that take this user out only. -/
theorem Placed.entered (placed : Placed s c) (entry : Entry t q.1 q.2)
    (free : removes c ≠ some q) : Placed t c := by
  by_cases own : adds c = some q
  · cases c with
    | setRecent p | get p map | update p map | set p map => exact Option.some.inj own ▸ entry
    | arrayUnion => trivial
    | setGroup | arrayRemove | deleteRecent => contradiction
  · refine placed.transfer fun p => ?_
    rintro (same | same)
    · exact others p fun equal => own (equal ▸ same)
    · exact others p fun equal => free (equal ▸ same)

theorem Placed.left (placed : Placed s c) (outside : ¬ Entry t q.1 q.2)
    (free : adds c ≠ some q) : Placed t c := by
  by_cases own : removes c = some q
  · cases c with
    | deleteRecent p => exact Option.some.inj own ▸ outside
    | arrayRemove => trivial
    | setGroup | setRecent | arrayUnion | get | update | set => contradiction
  · refine placed.transfer fun p => ?_
    rintro (same | same)
    · exact others p fun equal => free (equal ▸ same)
    · exact others p fun equal => own (equal ▸ same)

end Placed

theorem about_of_removes {c : Call} (removed : removes c = some p) : about c = p.2 := by
  cases c with
  | arrayRemove | deleteRecent => exact Option.some.inj removed ▸ rfl
  | setGroup | setRecent | arrayUnion | get | update | set => contradiction

section Parted
variable {i : Nat} {call : Call}

theorem Parted.await {calls : List Call} (parted : Parted s)
    (later : ∀ call ∈ calls, created call = none) (placed : ∀ call ∈ calls, Placed s call)
    (apart : Apart (s.calls ++ calls)) : Parted (s.await calls) := by
  refine ⟨fun c member => ?_,apart⟩
  have before : Placed s c := (List.mem_append.mp member).elim (parted.placed c) (placed c)
  exact before.transfer fun p _ => entry_await later p.1 p.2

theorem Parted.rest (parted : Parted s) (found : s.calls[i]? = some call)
    (other : created call = none) : Parted {s with calls := s.calls.eraseIdx i} where
  placed c member := (parted.placed c (List.mem_of_mem_eraseIdx member)).transfer
    fun p _ => entry_rest found other p
  apart := parted.apart.subset List.eraseIdx_subset

theorem Parted.createGroup {group : Group} {admin : FirebaseUser} (parted : Parted s)
    (members : group.members = [admin]) (unused : ∀ call ∈ s.calls, about call ≠ group.id) :
    Parted (s.await [.setGroup group,.setRecent (admin.id,group.id)]) := by
  have free (c : Call) (member : c ∈ s.calls) : removes c ≠ some (admin.id,group.id) :=
    fun removed => unused c member (about_of_removes removed)
  have entry : Entry (s.await [.setGroup group,.setRecent (admin.id,group.id)]) admin.id group.id :=
    .inr ⟨.setGroup group,by simp [Cloud.await],rfl,admin,by simp [members],rfl⟩
  constructor
  · intro c member
    rcases List.mem_append.mp member with old | new
    · exact (parted.placed c old).entered (q := (admin.id,group.id))
        (fun p => entry_createGroup members) entry (free c old)
    · rcases List.mem_pair.mp new with rfl | rfl
      · trivial
      · exact entry
  · apply parted.apart.adding
    · simp [removes]
    · simpa [adds] using free

theorem Parted.get {now : Int} {shown : Option String} {q : Path} {map : RecentGroup}
    (parted : Parted s) (found : s.calls[i]? = some (.get q map)) :
    Parted (Cloud.continued {s with calls := s.calls.eraseIdx i} now shown (.get q map)) := by
  have member := List.mem_of_getElem? found
  have rest := parted.rest found rfl
  apply rest.await
  · intro c new
    rw [List.mem_singleton.mp new]
    split <;> rfl
  · intro c new
    have entry : Entry {s with calls := s.calls.eraseIdx i} q.1 q.2 :=
      (entry_rest found rfl q).mpr (parted.placed _ member)
    rw [List.mem_singleton.mp new]
    split <;> exact entry
  · apply rest.apart.adding
    · intro c new
      rw [List.mem_singleton.mp new]
      split <;> rfl
    · intro c new p added d waits
      have own : adds (.get q map) = some p := by
        rw [← added,List.mem_singleton.mp new]
        split <;> rfl
      exact parted.apart _ member p own d (List.mem_of_mem_eraseIdx waits)

theorem Parted.arrayUnion {now : Int} {shown : Option String} {user : FirebaseUser}
    {groupId : String} (parted : Parted s) (found : s.calls[i]? = some (.arrayUnion user groupId)) :
    Parted (Cloud.continued {s with calls := s.calls.eraseIdx i} now shown
      (.arrayUnion user groupId)) := by
  have rest := parted.rest found rfl
  rw [Cloud.continued,Cloud.updateMembers]
  split
  next group stored =>
    have later : ∀ call ∈ [Call.setRecent (user.id,groupId)], created call = none := by
      simp [created]
    have free (d : Call) (waits : d ∈ s.calls.eraseIdx i) : removes d ≠ some (user.id,groupId) :=
      parted.apart _ (List.mem_of_getElem? found) _ rfl d (List.mem_of_mem_eraseIdx waits)
    let t := Cloud.await {s with
      groups := s.groups.set groupId {group with members :=
        if user ∈ group.members then group.members else group.members ++ [user]}
      calls := s.calls.eraseIdx i} [.setRecent (user.id,groupId)]
    have entry : Entry t user.id groupId := by
      refine .inl ⟨_,Store.set_self _,user,?_,rfl⟩
      dsimp only
      split
      · assumption
      · simp
    constructor
    · intro c waits
      rcases List.mem_append.mp waits with old | new
      · refine (rest.placed c old).entered (t := t) (q := (user.id,groupId)) ?_ entry (free c old)
        exact fun p => entry_members stored union_others later
      · rw [List.mem_singleton.mp new]
        exact entry
    · apply rest.apart.adding
      · simp [removes]
      · simpa [adds] using free
  next => exact rest

theorem Parted.arrayRemove {now : Int} {shown : Option String} {user : FirebaseUser}
    {groupId : String} (tracked : Tracked s) (parted : Parted s)
    (found : s.calls[i]? = some (.arrayRemove user groupId))
    (fits : Fits s shown (.arrayRemove user groupId)) :
    Parted (Cloud.continued {s with calls := s.calls.eraseIdx i} now shown
      (.arrayRemove user groupId)) := by
  have rest := parted.rest found rfl
  obtain ⟨rfl,own⟩ := fits
  rw [Cloud.continued,Cloud.updateMembers]
  split
  next group stored =>
    have later : ∀ call ∈ [Call.deleteRecent (user.id,groupId)], created call = none := by
      simp [created]
    have free (c : Call) (waits : c ∈ s.calls.eraseIdx i) : adds c ≠ some (user.id,groupId) :=
      fun added => parted.apart c (List.mem_of_mem_eraseIdx waits) _ added _
        (List.mem_of_getElem? found) rfl
    let t := Cloud.await {s with
      groups := s.groups.set groupId {group with members := group.members.filter (· ≠ user)}
      calls := s.calls.eraseIdx i} [.deleteRecent (user.id,groupId)]
    have outside : ¬ Entry t user.id groupId := by
      rintro (⟨other,held,m,listed,same⟩ | ⟨c,waits,creates⟩)
      · cases Option.some.inj (held.symm.trans (Store.set_self _))
        -- the map taken out is the only one with this id
        obtain ⟨old,kept⟩ := List.mem_filter.mp listed
        exact absurd (own group stored m old same) (by simpa using kept)
      · cases c with
        | setGroup created =>
          -- the group is there already
          rcases List.mem_append.mp waits with old | new
          · have empty := tracked.sound.fresh created (List.mem_of_mem_eraseIdx old)
            rw [creates.1] at empty
            exact absurd (stored.symm.trans empty) (Option.some_ne_none _)
          · simp at new
        | setRecent | arrayUnion | arrayRemove | deleteRecent | get | update | set => exact creates
    constructor
    · intro c waits
      rcases List.mem_append.mp waits with old | new
      · refine (rest.placed c old).left (t := t) (q := (user.id,groupId)) ?_ outside (free c old)
        exact fun p => entry_members stored remove_others later
      · rw [List.mem_singleton.mp new]
        exact outside
    · apply rest.apart.removing
      · simp [adds]
      · simpa [removes] using free
  next => exact rest

theorem Parted.continued {now : Int} {shown : Option String} (tracked : Tracked s)
    (parted : Parted s) (found : s.calls[i]? = some call) (fits : Fits s shown call) :
    Parted (Cloud.continued {s with calls := s.calls.eraseIdx i} now shown call) := by
  cases call with
  | setGroup group =>
    refine ⟨fun c waits => ?_,parted.apart.subset List.eraseIdx_subset⟩
    exact (parted.placed c (List.mem_of_mem_eraseIdx waits)).transfer
      fun p _ => entry_setGroup tracked.sound found p
  | setRecent q | set q map | deleteRecent q =>
    have rest := parted.rest found rfl
    exact ⟨rest.placed,rest.apart⟩
  | get q map => exact parted.get found
  | update q map =>
    have rest := parted.rest found rfl
    rw [Cloud.continued]
    split
    · exact ⟨rest.placed,rest.apart⟩
    · exact rest
  | arrayUnion user groupId => exact parted.arrayUnion found
  | arrayRemove user groupId => exact Parted.arrayRemove tracked parted found fits

theorem parted_step {a : Action} (tracked : Tracked s) (parted : Parted s) (steady : Steady s a)
    (stepped : s.step a = some t) : Parted t := by
  cases a with
  | createGroup admin groupId groupName groupImg groupTopic =>
    cases Option.some.inj stepped
    let user : FirebaseUser := ⟨admin.id,admin.name,admin.image,true⟩
    let group : Group := ⟨groupId,groupName,groupImg,groupTopic,[user]⟩
    exact parted.createGroup (rfl : group.members = [user]) steady.2
  | acceptRequest account groupId =>
    cases Option.some.inj stepped
    apply parted.await
    · simp [created]
    · simp [Placed]
    · exact parted.apart.adding (by simp [removes]) (by simpa [adds,Steady] using steady)
  | removeMember member groupId =>
    cases Option.some.inj stepped
    apply parted.await
    · simp [created]
    · simp [Placed]
    · exact parted.apart.removing (by simp [adds]) (by simpa [removes,Steady] using steady)
  | openGroupChat =>
    cases Option.some.inj stepped
    exact ⟨parted.placed,parted.apart⟩
  | onSendMessage index message now =>
    obtain ⟨screen,opened,rfl⟩ := Option.map_eq_some_iff.mp stepped
    have listed := steady screen opened
    obtain ⟨calls,sent,gets⟩ := onSendMessage_gets s screen message now
    rw [sent]
    apply parted.await
    · intro call new
      obtain ⟨m,_,rfl⟩ := gets call new
      rfl
    · intro call new
      obtain ⟨m,member,rfl⟩ := gets call new
      exact (listed m member).1
    · apply parted.apart.adding
      · intro call new
        obtain ⟨m,_,rfl⟩ := gets call new
        rfl
      · intro call new p added
        obtain ⟨m,member,rfl⟩ := gets call new
        exact Option.some.inj added ▸ (listed m member).2
  | resume i now shown =>
    obtain ⟨call,found,rfl⟩ := Option.map_eq_some_iff.mp stepped
    exact Parted.continued tracked parted found (steady call found)
  | fail i =>
    obtain ⟨call,found,rfl⟩ := Option.map_eq_some_iff.mp stepped
    have spared := steady call found
    cases call with
    | setGroup => exact spared.elim
    | setRecent | arrayUnion | arrayRemove | deleteRecent | get | update | set =>
      exact parted.rest found rfl

end Parted

/-- The user has left the group and nobody is adding him again. -/
structure Gone (userId groupId : String) (s : Cloud) : Prop where
  exist : s.groups groupId ≠ none
  outside : ¬ Member s userId groupId
  unasked : ∀ user, .arrayUnion user groupId ∈ s.calls → user.id ≠ userId

def Rejoins (userId groupId : String) : Action → Prop
  | .acceptRequest account id => account.id = userId ∧ id = groupId
  | _ => False

variable {userId groupId : String}

theorem Gone.await {calls : List Call} (gone : Gone userId groupId s)
    (new : ∀ user, .arrayUnion user groupId ∈ calls → user.id ≠ userId) :
    Gone userId groupId (s.await calls) where
  exist := gone.exist
  outside := gone.outside
  unasked user member := (List.mem_append.mp member).elim (gone.unasked user) (new user)

theorem Gone.rest (gone : Gone userId groupId s) (i : Nat) :
    Gone userId groupId {s with calls := s.calls.eraseIdx i} where
  exist := gone.exist
  outside := gone.outside
  unasked user member := gone.unasked user (List.mem_of_mem_eraseIdx member)

theorem Gone.groups {id : String} {group : Group} (gone : Gone userId groupId s)
    (without : id = groupId → ∀ m ∈ group.members, m.id ≠ userId) :
    Gone userId groupId {s with groups := s.groups.set id group} := by
  by_cases same : groupId = id
  · subst same
    refine ⟨by simp,?_,gone.unasked⟩
    rintro ⟨other,held,m,member,equal⟩
    cases Option.some.inj (held.symm.trans (Store.set_self _))
    exact without rfl m member equal
  · refine ⟨(Store.set_of_ne same _).trans_ne gone.exist,?_,gone.unasked⟩
    unfold Member
    dsimp only
    rw [Store.set_of_ne same]
    exact gone.outside

theorem Gone.updateMembers {id : String} {members : List FirebaseUser → List FirebaseUser}
    {next : List Call} (gone : Gone userId groupId s)
    (without : id = groupId → ∀ group ∈ s.groups id, (∀ m ∈ group.members, m.id ≠ userId) →
      ∀ m ∈ members group.members, m.id ≠ userId)
    (writes : ∀ user id, .arrayUnion user id ∉ next) :
    Gone userId groupId (s.updateMembers id members next) := by
  unfold Cloud.updateMembers
  split
  next group stored =>
    apply Gone.await
    · apply gone.groups
      intro same
      apply without same group stored
      intro m member equal
      exact gone.outside ⟨group,same ▸ stored,m,member,equal⟩
    · exact fun user member => absurd member (writes user groupId)
  next => exact gone

theorem Gone.continued {i : Nat} {now : Int} {shown : Option String} {call : Call}
    (tracked : Tracked s) (gone : Gone userId groupId s) (found : s.calls[i]? = some call) :
    Gone userId groupId (Cloud.continued {s with calls := s.calls.eraseIdx i} now shown call) := by
  have rest := gone.rest i
  have member := List.mem_of_getElem? found
  cases call with
  | setGroup group =>
    apply rest.groups
    rintro rfl
    exact absurd (tracked.sound.fresh group member) gone.exist
  | setRecent | set | deleteRecent => exact ⟨rest.exist,rest.outside,rest.unasked⟩
  | get p map =>
    apply rest.await
    intro user member
    split at member <;> simp at member
  | update p map =>
    rw [Cloud.continued]
    split
    · exact ⟨rest.exist,rest.outside,rest.unasked⟩
    · exact rest
  | arrayUnion user id =>
    rw [Cloud.continued]
    apply rest.updateMembers
    · rintro rfl group _ others m joined
      split at joined
      · exact others m joined
      · rcases List.mem_append.mp joined with old | new
        · exact others m old
        · exact List.mem_singleton.mp new ▸ gone.unasked user member
    · simp
  | arrayRemove user id =>
    rw [Cloud.continued]
    apply rest.updateMembers
    · intro _ group _ others m kept
      exact others m (List.mem_filter.mp kept).1
    · simp

theorem gone_step {a : Action} (tracked : Tracked s) (gone : Gone userId groupId s)
    (stays : ¬ Rejoins userId groupId a) (stepped : s.step a = some t) :
    Gone userId groupId t := by
  cases a with
  | createGroup | removeMember =>
    cases Option.some.inj stepped
    exact gone.await (by simp)
  | acceptRequest account id =>
    cases Option.some.inj stepped
    refine gone.await fun user member same => stays ?_
    cases List.mem_singleton.mp member
    exact ⟨same,rfl⟩
  | openGroupChat =>
    cases Option.some.inj stepped
    exact ⟨gone.exist,gone.outside,gone.unasked⟩
  | onSendMessage index message now =>
    obtain ⟨screen,_,rfl⟩ := Option.map_eq_some_iff.mp stepped
    obtain ⟨calls,sent,gets⟩ := onSendMessage_gets s screen message now
    rw [sent]
    apply gone.await
    intro user member
    obtain ⟨_,_,same⟩ := gets _ member
    contradiction
  | fail i =>
    obtain ⟨call,_,rfl⟩ := Option.map_eq_some_iff.mp stepped
    exact gone.rest i
  | resume i now shown =>
    obtain ⟨call,found,rfl⟩ := Option.map_eq_some_iff.mp stepped
    exact Gone.continued tracked gone found

/-- The step removes the user from an existing group. -/
def Removes (userId groupId : String) (s : Cloud) : Action → Prop
  | .resume i .. => ∃ user, s.calls[i]? = some (.arrayRemove user groupId) ∧ user.id = userId ∧
    s.groups groupId ≠ none
  | _ => False

theorem gone_of_removes {a : Action} (parted : Parted s) (out : Removes userId groupId s a)
    (steady : Steady s a) (stepped : s.step a = some t) : Gone userId groupId t := by
  cases a with
  | resume i now shown =>
    obtain ⟨user,found,rfl,exist⟩ := out
    have fits := (steady _ found).2
    have taken := List.mem_of_getElem? found
    obtain ⟨call,awaited,rfl⟩ := Option.map_eq_some_iff.mp stepped
    cases Option.some.inj (found.symm.trans awaited)
    rw [Cloud.continued,Cloud.updateMembers]
    split
    next group stored =>
      refine ⟨by simp [Cloud.await],?_,?_⟩
      · rintro ⟨other,held,m,member,same⟩
        cases Option.some.inj (held.symm.trans (Store.set_self _))
        -- the map taken out is the only one with this id
        obtain ⟨old,kept⟩ := List.mem_filter.mp member
        exact absurd (fits group stored m old same) (by simpa using kept)
      · intro other member same
        rcases List.mem_append.mp member with old | new
        · have added : adds (.arrayUnion other groupId) = some (user.id,groupId) := by
            rw [← same]
            rfl
          exact parted.apart _ (List.mem_of_mem_eraseIdx old) _ added _ taken rfl
        · simp at new
    next missing => exact absurd missing exist
  | createGroup | acceptRequest | removeMember | openGroupChat | onSendMessage | fail =>
    exact out.elim

/-- When a user is not added to a group and taken out of it at one time, members and documents
agree; and a removed user is in neither until he accepts again. -/
theorem members_indexed {as : List Action} (run : Run Cloud.step Steady {} as s) :
    (s.calls = [] → Indexed s) ∧
      ∀ a userId groupId bs t u, Removes userId groupId s a → Steady s a → s.step a = some t →
        Run Cloud.step (fun s a => Steady s a ∧ ¬ Rejoins userId groupId a) t bs u →
          u.calls = [] → ¬ Member u userId groupId ∧ u.recentgroups (userId,groupId) = none := by
  have start : Tracked {} ∧ Parted {} := by
    refine ⟨⟨⟨by simp,by simp,by simp,by simp⟩,fun p => .inl ?_⟩,⟨by simp,by simp [Apart]⟩⟩
    simp [Entry,Member]
  have step (s : Cloud) (a : Action) (t : Cloud) (both : Tracked s ∧ Parted s) (steady : Steady s a)
      (stepped : s.step a = some t) : Tracked t ∧ Parted t :=
    ⟨tracked_step both.1 both.2 steady stepped,parted_step both.1 both.2 steady stepped⟩
  have both := run.invariant (fun s => Tracked s ∧ Parted s) start step
  refine ⟨both.1.indexed,fun a userId groupId bs t u out steady stepped later quiet => ?_⟩
  obtain ⟨⟨tracked,_⟩,gone⟩ := later.invariant
    (fun s => (Tracked s ∧ Parted s) ∧ Gone userId groupId s)
    ⟨step s a t both steady stepped,gone_of_removes both.2 out steady stepped⟩
    fun s a t kept admitted stepped =>
      ⟨step s a t kept.1 admitted.1 stepped,gone_step kept.1.1 kept.2 admitted.2 stepped⟩
  refine ⟨gone.outside,not_not.mp fun exist => gone.outside ?_⟩
  exact ((tracked.indexed quiet).index userId groupId).mpr exist

/-- User "2" accepts twice and is sent a message, and is removed when all of this is through. -/
def acceptedTwice : List Action :=
  setup ++ [.acceptRequest ⟨"2","",""⟩ "g",.onSendMessage 0 ⟨"hi",0⟩ 4,.resume 0 4,.resume 0 5,
    .resume 0 5,.resume 0 5,.resume 0 6,.resume 0 6,.removeMember ⟨"2","","",false⟩ "g",
    .resume 0 7 (some "2"),.resume 0 8]

theorem members_indexed_removed : ∃ s, Run Cloud.step Steady {} acceptedTwice s ∧
      ¬ Member s "2" "g" ∧ Member s "1" "g" ∧ Indexed s := by
  obtain ⟨s,run,quiet,out,inside⟩ : ∃ s, Run Cloud.step Steady {} acceptedTwice s ∧
        s.calls = [] ∧ ¬ Member s "2" "g" ∧ Member s "1" "g" :=
    Run.exists_of_exec (by decide)
  exact ⟨s,run,out,inside,(members_indexed run).1 quiet⟩

/-- User "2" joins, changes the profile photo and is removed with the map of the friend
list: the entry stays and the document goes. -/
theorem members_of_changed_photo : ∃ s,
    Run Cloud.step anyStep {} (setup ++ [.removeMember ⟨"2","","new.png",false⟩ "g",
      .resume 0 4 (some "2"),.resume 0 5]) s ∧ s.calls = [] ∧ Member s "2" "g" ∧ ¬ Indexed s := by
  obtain ⟨s,run,quiet,inside,gone⟩ : ∃ s,
      Run Cloud.step anyStep {} (setup ++ [.removeMember ⟨"2","","new.png",false⟩ "g",
        .resume 0 4 (some "2"),.resume 0 5]) s ∧
        s.calls = [] ∧ Member s "2" "g" ∧ s.recentgroups ("2","g") = none :=
    Run.exists_of_exec (by decide)
  exact ⟨s,run,quiet,inside,fun indexed => (indexed.index "2" "g").mp inside gone⟩

end Neuro.GroupMembers
