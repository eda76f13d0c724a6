import Neuro.Lib.Pool
import Neuro.Lib.Run
import Neuro.ProfileGallery
import Neuro.Repository

/-! The preferences of an account. They are written by whatever call is answered, one await after
the other, and every call takes the token that is stored when it posts. -/
namespace Neuro.AccountPrefs
open Neuro.Lib SignIn Repository
open RequestRows (member)

abbrev Sets := List (Key × Option Value)

/-- The calls that read the token or write preferences; `other` is any other repository function,
and an account is deleted in the same way as it is logged out. -/
inductive Kind
  | signIn (call : SignIn.Call)
  | getProfile (userId : String)
  | editProfile (mode : String)
  | editMode (mode : String)
  | premiumStatusChange
  | getSubscriptionStatus
  | logout
  | other
  deriving DecidableEq, Repr

def Kind.signsIn : Kind → Bool
  | .signIn _ => true
  | .getProfile _ | .editProfile _ | .editMode _ | .premiumStatusChange | .getSubscriptionStatus
  | .logout | .other => false

/-- The name, the picture and the mode of `Profile.fromJSON`. Lists that throw leave what comes
after them empty. -/
def loaded (jsonMap : Json) : String × String × String :=
  let name := (member jsonMap "name").text
  let lists := (ProfileGallery.listed (member jsonMap "image")).bind fun moreImage =>
    (moreImage.mapM Json.asString).bind fun _ =>
      ProfileGallery.listed (member jsonMap "following_applies")
  if lists.isSome then (name,(member jsonMap "profile_img").text,(member jsonMap "mode").text)
  else (name,"","")

def object (json : Json) : Option Json := match json with
  | .map entries => some (.map entries)
  | .null | .bool _ | .int _ | .double _ | .string _ | .list _ => none

/-- What `getProfile` of the repository returns; the profile is an empty one if the server fails. -/
def profile (response : Response) : Option (String × String × String) :=
  answered response (fun res => ((res.index "data").bind object).map loaded) ("","","")

def updated (response : Response) : Bool :=
  decide ((response.body.bind fun res => (res.index "success").bind Json.asBool) = some true)

/-- What one call writes, in pieces between which it awaits. -/
def Kind.writes (kind : Kind) (response : Response) : List Sets := match kind with
  | .signIn call => match reply call response with
    | .failed => []
    | .declined => [[(.isLogin,some (.bool false))]]
    | .accepted userData =>
      let sets := SignIn.writes call userData ++ [(.isLogin,some (.bool true))]
      if call = .userSociallogin then [sets.take 2,sets.drop 2] else [sets]
  | .getProfile _ => match profile response with
    | none => []
    | some (name,profileImg,mode) => [[(.name,some (.string name))],
      [(.profileImage,some (.string profileImg))],[(.mode,some (.string mode))]]
  | .editProfile mode => if updated response then [[(.mode,some (.string mode))]] else []
  | .editMode mode => if succeeded response then [[(.mode,some (.string mode))]] else []
  | .premiumStatusChange =>
    if response.statusCode = 200 then [[(.isPrime,some (.bool true))]] else []
  | .getSubscriptionStatus => [[(.isPrime,if response.statusCode = 200 then
      bool (response.body.bind fun res => data res "isPrime") else some (.bool false))]]
  | .logout | .other => []

def userId : SignIn.Call → Json → Option String
  | .userRegister,userData => (userField userData "id").map Json.text
  | .userLogin,userData | .userSociallogin,userData => (userData.index "id").map Json.text

/-- Whom the values of the response are about: the server looks a profile up by its id and takes
anything else from the token. -/
def Kind.owner (kind : Kind) (response : Response) (bearer : Option String) : Option String :=
  match kind with
  | .signIn call => match reply call response with
    | .accepted userData => userId call userData
    | .failed | .declined => none
  | .getProfile userId => some userId
  | .editProfile _ | .editMode _ | .premiumStatusChange | .getSubscriptionStatus | .logout
  | .other => bearer

/-- A stored value, with a history of whom it is about. -/
structure Entry where
  value : Value
  owner : Option String
  deriving DecidableEq, Repr

inductive Stage
  | connecting
  | loadingPrefs
  | posted (bearer : Option String)
  | writing (owner : Option String) (rest : List Sets)
  | finished
  deriving DecidableEq, Repr

/-- `began` is the account under which the call has begun. -/
structure Call where
  kind : Kind
  began : Option String
  stage : Stage
  deriving DecidableEq, Repr

structure Request where
  began : Option String
  bearer : Option String
  deriving DecidableEq, Repr

structure State where
  entries : Store Key Entry
  calls : List Call := []
  sent : List Request := []

inductive Action
  | begin (kind : Kind)
  | connected (call : Nat) (value : Bool)
  | prefsLoaded (call : Nat)
  /-- No response if the request throws. A logout takes down the loader before it clears the
  preferences, unless `loader.remove()` throws. -/
  | responded (call : Nat) (response : Option Response) (removed : Bool)
  | written (call : Nat)

namespace State
variable (s : State)

/-- Whose token is stored. -/
def account : Option String := (s.entries .token).bind Entry.owner

def put (i : Nat) (call : Call) (stage : Stage) : State :=
  {s with calls := s.calls.set i {call with stage := stage}}

def assign (owner : Option String) (sets : Sets) : State :=
  {s with entries := s.entries.assign (sets.map fun e => (e.1,e.2.map fun value => ⟨value,owner⟩))}

/-- A value that cannot be read ends the call. -/
def write (i : Nat) (call : Call) (owner : Option String) : List Sets → State
  | [] => s.put i call .finished
  | sets :: rest => (s.assign owner sets).put i call
      (if rest ≠ [] ∧ ∀ e ∈ sets, e.2 ≠ none then .writing owner rest else .finished)

def cleared : State := {s with entries := fun _ => none}

def respond (i : Nat) (call : Call) (bearer : Option String) (removed : Bool) :
    Option Response → State
  | none => s.put i call .finished
  | some response =>
    if call.kind = .logout then
      (if removed then s.cleared else s).put i call .finished
    else s.write i call (call.kind.owner response bearer) (call.kind.writes response)

/-- `getProfile` asserts that there is an id. -/
def admits (kind : Kind) : Prop := match kind with
  | .getProfile userId => (s.entries .userId).map Entry.value = some (.string userId)
  | .signIn _ | .editProfile _ | .editMode _ | .premiumStatusChange | .getSubscriptionStatus
  | .logout | .other => True

instance (kind : Kind) : Decidable (s.admits kind) := by
  cases kind <;> unfold admits <;> infer_instance

def step (s : State) : Action → Option State
  | .begin kind => if s.admits kind then some {s with calls := s.calls ++ [⟨kind,s.account,
      if kind = .getSubscriptionStatus then .loadingPrefs else .connecting⟩]} else none
  | .connected i value => s.calls[i]?.bind fun call =>
    if call.stage = .connecting then
      some (s.put i call (if value then .loadingPrefs else .finished))
    else none
  | .prefsLoaded i => s.calls[i]?.bind fun call =>
    if call.stage = .loadingPrefs then
      if call.kind.signsIn then some (s.put i call (.posted none))
      else
        some {s.put i call (.posted s.account) with sent := s.sent ++ [⟨call.began,s.account⟩]}
    else none
  | .responded i response removed => s.calls[i]?.bind fun call => match call.stage with
    | .posted bearer => some (s.respond i call bearer removed response)
    | .connecting | .loadingPrefs | .writing .. | .finished => none
  | .written i => s.calls[i]?.bind fun call => match call.stage with
    | .writing owner rest => some (s.write i call owner rest)
    | .connecting | .loadingPrefs | .posted _ | .finished => none

end State

/-- What is stored has all been written about one account, the one whose id is stored. -/
structure OneAccount (user : Option String) (s : State) : Prop where
  owner : ∀ key ∈ sessionKeys, ∀ e ∈ s.entries key, e.owner = user
  id : ∀ e ∈ s.entries .userId, ∃ u, user = some u ∧ e.value = .string u

/-- Whether the response makes the device change its account. -/
def Call.switches (call : Call) (response : Response) : Bool := match call.kind with
  | .signIn c => match reply c response with
    | .accepted _ => true
    | .failed | .declined => false
  | .logout => true
  | .getProfile _ | .editProfile _ | .editMode _ | .premiumStatusChange | .getSubscriptionStatus
  | .other => false

/-- Somebody is signed in only when no key of a session is stored, a change of the account finds all
other calls through, and without a token only sign-ins begin. -/
def Undisturbed (s : State) : Action → Prop
  | .begin kind => kind.signsIn = true ∨ s.entries .token ≠ none
  | .responded i response _ => ∀ call ∈ s.calls[i]?, ∀ r ∈ response, call.switches r = true →
    (∀ other ∈ s.calls.eraseIdx i, other.stage = .finished) ∧
      (call.kind.signsIn = true → ∀ key ∈ sessionKeys, s.entries key = none)
  | .connected .. | .prefsLoaded _ | .written _ => True

instance (s : State) : ∀ a, Decidable (Undisturbed s a)
  | .begin _ => inferInstanceAs (Decidable (_ ∨ _))
  | .responded .. => inferInstanceAs (Decidable (∀ _ ∈ _, ∀ _ ∈ _, _ → _ ∧ (_ → ∀ _ ∈ _, _)))
  | .connected .. | .prefsLoaded _ | .written _ => inferInstanceAs (Decidable True)

/-- The call has nothing to write and posts no token. -/
def Call.idle (call : Call) : Bool := match call.stage with
  | .finished => true
  | .writing .. => false
  | .connecting | .loadingPrefs | .posted _ => call.kind.signsIn

def Kind.about (user : Option String) : Kind → Prop
  | .getProfile userId => some userId = user
  | .signIn _ | .editProfile _ | .editMode _ | .premiumStatusChange | .getSubscriptionStatus
  | .logout | .other => True

/-- A call on its way is one of the account. -/
def Call.Own (user : Option String) (call : Call) : Prop := match call.stage with
  | .connecting | .loadingPrefs =>
    call.kind.signsIn = true ∨ call.began = user ∧ call.kind.about user
  | .posted bearer =>
    call.kind.signsIn = true ∨ call.began = user ∧ bearer = user ∧ call.kind.about user
  | .writing owner rest => owner = user ∧ ∀ sets ∈ rest, .userId ∉ sets.map Prod.fst
  | .finished => True

structure Held (user : Option String) (s : State) : Prop where
  one : OneAccount user s
  signedOut : s.entries .token = none →
    (∀ key ∈ sessionKeys, s.entries key = none) ∧ ∀ call ∈ s.calls, call.idle = true
  own : ∀ call ∈ s.calls, call.Own user
  sent : ∀ request ∈ s.sent, request.bearer = request.began

section Assign
variable {entries : Store Key Entry} {user : Option String} {sets : Sets} {key : Key}

/-- The writes as they are stored. -/
def owned (owner : Option String) (sets : Sets) : List (Key × Option Entry) :=
  sets.map fun e => (e.1,e.2.map fun value => ⟨value,owner⟩)

theorem assign_cases (store : Store Key Entry) (writes : List (Key × Option Entry)) (key : Key) :
    store.assign writes key = store key ∨
      ∃ e, (key,some e) ∈ writes ∧ store.assign writes key = some e := by
  induction writes generalizing store with
  | nil => exact .inl rfl
  | cons first rest ih =>
    obtain ⟨k,entry⟩ := first
    cases entry with
    | none => exact .inl rfl
    | some entry =>
      rcases ih (store.set k entry) with kept | ⟨e,member,written⟩
      · by_cases same : key = k
        · subst same
          exact .inr ⟨entry,by simp,by rw [Store.assign,kept,Store.set_self]⟩
        · exact .inl (by rw [Store.assign,kept,Store.set_of_ne same])
      · exact .inr ⟨e,List.mem_cons_of_mem _ member,by rw [Store.assign,written]⟩

theorem mem_owned {owner : Option String} {e : Entry} (member : (key,some e) ∈ owned owner sets) :
    e.owner = owner ∧ (key,some e.value) ∈ sets := by
  obtain ⟨⟨k,value⟩,inside,same⟩ := List.mem_map.mp member
  obtain ⟨rfl,mapped⟩ := Prod.mk.inj same
  obtain ⟨value,rfl,rfl⟩ := Option.map_eq_some_iff.mp mapped
  exact ⟨rfl,inside⟩

end Assign

section Step
variable {user : Option String} {s t : State} {i : Nat} {call : Call} {sets : Sets}
  {pieces : List Sets}

theorem calls_own (held : Held user s) (found : s.calls[i]? = some call) : call.Own user :=
  held.own call (List.mem_of_getElem? found)

/-- Without a token there is nothing on its way but sign-ins. -/
theorem token_of_busy (held : Held user s) (found : s.calls[i]? = some call)
    (busy : call.idle = false) : s.entries .token ≠ none := by
  intro none
  have idle := (held.signedOut none).2 call (List.mem_of_getElem? found)
  rw [busy] at idle
  contradiction

theorem account_eq (held : Held user s) (token : s.entries .token ≠ none) : s.account = user := by
  obtain ⟨e,stored⟩ := Option.ne_none_iff_exists'.mp token
  rw [State.account,stored,Option.bind_some]
  exact held.one.owner .token (by decide) e stored

theorem held_put (held : Held user s) {stage : Stage} (own : ({call with stage := stage} : Call).Own user)
    (idle : s.entries .token = none → ({call with stage := stage} : Call).idle = true) :
    Held user (s.put i call stage) where
  one := ⟨held.one.owner,held.one.id⟩
  signedOut none := ⟨(held.signedOut none).1,Pool.forall_set (held.signedOut none).2 (idle none)⟩
  own := Pool.forall_set held.own own
  sent := held.sent

theorem held_finish (held : Held user s) : Held user (s.put i call .finished) :=
  held_put held trivial fun _ => rfl

theorem token_assign (token : s.entries .token ≠ none) (owner : Option String) :
    (s.assign owner sets).entries .token ≠ none := by
  rcases assign_cases s.entries (owned owner sets) .token with kept | ⟨e,_,written⟩
  · exact fun none => token (kept.symm.trans none)
  · exact fun none => Option.some_ne_none e (written.symm.trans none)

theorem one_assign (one : OneAccount user s)
    (id : ∀ value, (.userId,some value) ∈ sets → ∃ u, user = some u ∧ value = .string u) :
    OneAccount user (s.assign user sets) := by
  constructor
  · intro key inside e stored
    rcases assign_cases s.entries (owned user sets) key with kept | ⟨new,member,written⟩
    · exact one.owner key inside e (kept.symm.trans stored)
    · obtain rfl : new = e := Option.some.inj (written.symm.trans stored)
      exact (mem_owned member).1
  · intro e stored
    rcases assign_cases s.entries (owned user sets) .userId with kept | ⟨new,member,written⟩
    · exact one.id e (kept.symm.trans stored)
    · obtain rfl : new = e := Option.some.inj (written.symm.trans stored)
      exact id new.value (mem_owned member).2

theorem held_write_cons (held : Held user s)
    (still : (s.assign user sets).entries .token ≠ none)
    (id : ∀ value, (.userId,some value) ∈ sets → ∃ u, user = some u ∧ value = .string u)
    (rest : ∀ sets ∈ pieces, .userId ∉ sets.map Prod.fst) :
    Held user (s.write i call user (sets :: pieces)) := by
  have assigned : Held user (s.assign user sets) :=
    ⟨one_assign held.one id,fun none => absurd none still,held.own,held.sent⟩
  rw [State.write]
  split
  · exact held_put assigned ⟨rfl,rest⟩ fun none => absurd none still
  · exact held_finish assigned

/-- What a call of the account writes, none of which is an id. -/
theorem held_write (held : Held user s) (token : s.entries .token ≠ none)
    (rest : ∀ sets ∈ pieces, .userId ∉ sets.map Prod.fst) :
    Held user (s.write i call user pieces) := by
  cases pieces with
  | nil => exact held_finish held
  | cons sets pieces =>
    obtain ⟨first,others⟩ := List.forall_mem_cons.mp rest
    refine held_write_cons held (token_assign token user) (fun value member => ?_) others
    exact absurd (List.mem_map.mpr ⟨_,member,rfl⟩) first

/-- The writes of a sign-in start with the token; if that cannot be read, nothing is written. -/
theorem held_write_token (held : Held user s) {value : Option Value}
    (id : ∀ value, (.userId,some value) ∈ sets → ∃ u, user = some u ∧ value = .string u)
    (rest : ∀ sets ∈ pieces, .userId ∉ sets.map Prod.fst) :
    Held user (s.write i call user (((.token,value) :: sets) :: pieces)) := by
  cases value with
  | none =>
    have stopped : ¬ (pieces ≠ [] ∧ ∀ e ∈ (Key.token,none) :: sets, e.2 ≠ none) :=
      fun through => through.2 (Key.token,none) (by simp) rfl
    rw [State.write,if_neg stopped]
    exact held_finish held
  | some value =>
    refine held_write_cons held ?_ (fun value member => id value (by simpa using member)) rest
    have stored : (s.entries.set .token ⟨value,user⟩) .token ≠ none := by simp
    exact token_assign (s := {s with entries := s.entries.set .token ⟨value,user⟩}) stored user

/-- While nothing is stored and nothing else is on its way, the account may be any. -/
theorem held_switch (held : Held user s) (found : s.calls[i]? = some call)
    (signsIn : call.kind.signsIn = true) {bearer : Option String}
    (posted : call.stage = .posted bearer)
    (others : ∀ other ∈ s.calls.eraseIdx i, other.stage = .finished)
    (none : ∀ key ∈ sessionKeys, s.entries key = none) (other : Option String) : Held other s where
  one := by
    refine ⟨fun key inside e stored => ?_,fun e stored => ?_⟩
    · rw [none key inside] at stored
      contradiction
    · rw [none .userId (by decide)] at stored
      contradiction
  signedOut := held.signedOut
  own c member := by
    rcases (Pool.mem_resumed found).mp member with rfl | rest
    · rw [Call.Own,posted]
      exact .inl signsIn
    · rw [Call.Own,others c rest]
      trivial
  sent := held.sent

theorem writes_userId {kind : Kind} (signsIn : kind.signsIn = false) (response : Response) :
    ∀ sets ∈ kind.writes response, .userId ∉ sets.map Prod.fst := by
  cases kind with
  | signIn => contradiction
  | getProfile =>
    rw [Kind.writes]
    split <;> simp
  | editProfile | editMode | premiumStatusChange =>
    rw [Kind.writes]
    split <;> simp
  | getSubscriptionStatus | logout | other => simp [Kind.writes]

theorem owner_eq {kind : Kind} (signsIn : kind.signsIn = false) (about : kind.about user)
    (response : Response) : kind.owner response user = user := by
  cases kind with
  | signIn => contradiction
  | getProfile => exact about
  | editProfile | editMode | premiumStatusChange | getSubscriptionStatus | logout | other => rfl

/-- The id that a sign-in stores is the one its values are about. -/
theorem id_written (c : SignIn.Call) (userData : Json) : ∃ value others,
    SignIn.writes c userData = (.token,value) :: (.userId,(userId c userData).map .string) :: others ∧
      .userId ∉ others.map Prod.fst := by
  cases c with
  | userRegister => exact ⟨_,_,by rw [SignIn.writes,fields,printed,userId,Option.map_map]; rfl,by simp⟩
  | userLogin => exact ⟨_,_,by rw [SignIn.writes,fields,printed,userId,Option.map_map]; rfl,by simp⟩
  | userSociallogin =>
    refine ⟨_,_,by rw [SignIn.writes,socialFields,printed,userId,Option.map_map]; rfl,?_⟩
    split <;> simp

theorem held_signIn (held : Held user s) {c : SignIn.Call} {userData : Json} {response : Response}
    (accepted : reply c response = .accepted userData) (same : user = userId c userData) :
    Held user (s.write i call user ((Kind.signIn c).writes response)) := by
  obtain ⟨value,others,writes,fresh⟩ := id_written c userData
  have login : .userId ∉ (others ++ [(Key.isLogin,some (Value.bool true))]).map Prod.fst := by
    simpa using fresh
  have id : ∀ value, (Key.userId,some value) ∈ (.userId,(userId c userData).map Value.string) ::
      (others ++ [(Key.isLogin,some (Value.bool true))]) → ∃ u, user = some u ∧ value = .string u := by
    intro value member
    rcases List.mem_cons.mp member with own | late
    · obtain ⟨u,known,text⟩ := Option.map_eq_some_iff.mp (Prod.mk.inj own).2.symm
      exact ⟨u,same.trans known,text.symm⟩
    · exact absurd (List.mem_map.mpr ⟨_,late,rfl⟩) login
  rw [Kind.writes,accepted]
  dsimp only
  rw [writes]
  split
  · refine held_write_token held (fun value member => id value ?_) (by simpa using fresh)
    have own : (Key.userId,some value) = (.userId,(userId c userData).map Value.string) := by
      simpa using member
    exact own ▸ List.mem_cons_self
  · exact held_write_token held id (by simp)

theorem held_begin (held : Held user s) {kind : Kind} (admitted : s.admits kind)
    (undisturbed : kind.signsIn = true ∨ s.entries .token ≠ none) {stage : Stage}
    (early : stage = .connecting ∨ stage = .loadingPrefs) :
    Held user {s with calls := s.calls ++ [⟨kind,s.account,stage⟩]} where
  one := ⟨held.one.owner,held.one.id⟩
  signedOut none := by
    have signsIn := undisturbed.resolve_right fun token => token none
    refine ⟨(held.signedOut none).1,Pool.forall_append (held.signedOut none).2 ?_⟩
    rcases early with rfl | rfl <;> exact signsIn
  own := by
    refine Pool.forall_append held.own ?_
    have own : kind.signsIn = true ∨ s.account = user ∧ kind.about user := by
      refine undisturbed.imp_right fun token => ⟨account_eq held token,?_⟩
      cases kind with
      | getProfile id =>
        obtain ⟨e,stored,value⟩ := Option.map_eq_some_iff.mp admitted
        obtain ⟨u,known,text⟩ := held.one.id e stored
        rw [value] at text
        rw [known,Value.string.inj text]
        rfl
      | signIn | editProfile | editMode | premiumStatusChange | getSubscriptionStatus | logout
      | other => trivial
    rcases early with rfl | rfl <;> exact own
  sent := held.sent

theorem held_posted (held : Held user s) (found : s.calls[i]? = some call)
    (loading : call.stage = .loadingPrefs) (signsIn : call.kind.signsIn = false) :
    Held user {s.put i call (.posted s.account) with sent := s.sent ++ [⟨call.began,s.account⟩]} := by
  have token : s.entries .token ≠ none :=
    token_of_busy held found (by rw [Call.idle,loading]; exact signsIn)
  have account := account_eq held token
  have own : call.kind.signsIn = true ∨ call.began = user ∧ call.kind.about user := by
    have own := calls_own held found
    rwa [Call.Own,loading] at own
  obtain ⟨began,about⟩ := own.resolve_left (by simp [signsIn])
  have posted : Held user (s.put i call (.posted s.account)) :=
    held_put held (.inr ⟨began,account,about⟩) fun none => absurd none token
  exact ⟨⟨posted.one.owner,posted.one.id⟩,posted.signedOut,posted.own,
    Pool.forall_append posted.sent (account.trans began.symm)⟩

theorem held_respond (held : Held user s) (found : s.calls[i]? = some call)
    {bearer : Option String} (posted : call.stage = .posted bearer) {response : Response}
    (undisturbed : call.switches response = true →
      (∀ other ∈ s.calls.eraseIdx i, other.stage = .finished) ∧
        (call.kind.signsIn = true → ∀ key ∈ sessionKeys, s.entries key = none)) (removed : Bool) :
    ∃ user, Held user (s.respond i call bearer removed (some response)) := by
  have own := calls_own held found
  rw [Call.Own,posted] at own
  rw [State.respond]
  split
  next logout =>
    have others := (undisturbed (by rw [Call.switches,logout])).1
    split
    · obtain ⟨bound,_⟩ := List.getElem?_eq_some_iff.mp found
      have ended : ∀ c ∈ s.calls.set i {call with stage := .finished}, c.stage = .finished := by
        intro c member
        rcases List.mem_cons.mp ((List.set_perm_cons_eraseIdx bound _).mem_iff.mp member) with
          rfl | other
        · rfl
        · exact others c other
      refine ⟨none,⟨⟨by simp [State.put,State.cleared],by simp [State.put,State.cleared]⟩,?_,?_,
        held.sent⟩⟩
      · exact fun _ => ⟨fun _ _ => rfl,fun c member => by rw [Call.idle,ended c member]⟩
      · intro c member
        rw [Call.Own,ended c member]
        trivial
    · exact ⟨user,held_finish held⟩
  next =>
    cases kind : call.kind with
    | signIn c =>
      have signsIn : call.kind.signsIn = true := by rw [kind]; rfl
      cases replied : reply c response with
      | failed =>
        rw [Kind.writes,replied]
        exact ⟨user,held_finish held⟩
      | declined =>
        have kept : Held user (s.assign none [(.isLogin,some (.bool false))]) := by
          have same : ∀ key ∈ sessionKeys,
              (s.assign none [(.isLogin,some (.bool false))]).entries key = s.entries key := by
            intro key inside
            refine Store.set_of_ne (fun equal => ?_) _
            rw [equal] at inside
            exact absurd inside (by decide)
          refine ⟨⟨fun key inside e stored => ?_,fun e stored => ?_⟩,fun absent => ?_,held.own,held.sent⟩
          · exact held.one.owner key inside e ((same key inside).symm.trans stored)
          · exact held.one.id e ((same .userId (by decide)).symm.trans stored)
          · have signedOut := held.signedOut ((same .token (by decide)).symm.trans absent)
            exact ⟨fun key inside => (same key inside).trans (signedOut.1 key inside),signedOut.2⟩
        rw [Kind.writes,replied,Kind.owner,replied]
        exact ⟨user,held_finish kept⟩
      | accepted userData =>
        obtain ⟨others,none⟩ := undisturbed (by rw [Call.switches,kind]; dsimp only; rw [replied])
        rw [Kind.owner,replied]
        exact ⟨userId c userData,held_signIn (held_switch held found signsIn posted others
          (none signsIn) _) replied rfl⟩
    | getProfile | editProfile | editMode | premiumStatusChange | getSubscriptionStatus | logout
    | other =>
      have signsIn : call.kind.signsIn = false := by rw [kind]; rfl
      obtain ⟨_,bears,about⟩ := own.resolve_left (by simp [signsIn])
      have token : s.entries .token ≠ none :=
        token_of_busy held found (by rw [Call.idle,posted]; exact signsIn)
      have written := @held_write _ _ i call _ held token (writes_userId signsIn response)
      rw [← kind,bears,owner_eq signsIn about]
      exact ⟨user,written⟩

theorem held_step {a : Action} (held : Held user s) (undisturbed : Undisturbed s a)
    (stepped : s.step a = some t) : ∃ user, Held user t := by
  cases a with
  | begin kind =>
    simp only [State.step] at stepped
    split at stepped
    next admitted =>
      rw [← Option.some.inj stepped]
      refine ⟨user,held_begin held admitted undisturbed ?_⟩
      split
      · exact .inr rfl
      · exact .inl rfl
    next => contradiction
  | connected i value =>
    obtain ⟨call,found,taken⟩ := Option.bind_eq_some_iff.mp stepped
    split at taken
    next connecting =>
      rw [← Option.some.inj taken]
      cases value with
      | false => exact ⟨user,held_finish held⟩
      | true =>
        have own := calls_own held found
        rw [Call.Own,connecting] at own
        refine ⟨user,held_put held own fun none => ?_⟩
        have idle := (held.signedOut none).2 call (List.mem_of_getElem? found)
        rwa [Call.idle,connecting] at idle
    next => contradiction
  | prefsLoaded i =>
    obtain ⟨call,found,taken⟩ := Option.bind_eq_some_iff.mp stepped
    split at taken
    next loading =>
      split at taken
      next signsIn =>
        exact ⟨user,Option.some.inj taken ▸ held_put held (.inl signsIn) fun _ => signsIn⟩
      next asks =>
        exact ⟨user,Option.some.inj taken ▸ held_posted held found loading (by simpa using asks)⟩
    next => contradiction
  | responded i response removed =>
    obtain ⟨call,found,taken⟩ := Option.bind_eq_some_iff.mp stepped
    split at taken
    next bearer posted =>
      rw [← Option.some.inj taken]
      cases response with
      | none => exact ⟨user,held_finish held⟩
      | some response =>
        exact held_respond held found posted (undisturbed call found response rfl) removed
    all_goals contradiction
  | written i =>
    obtain ⟨call,found,taken⟩ := Option.bind_eq_some_iff.mp stepped
    split at taken
    next owner rest writing =>
      have own := calls_own held found
      rw [Call.Own,writing] at own
      obtain ⟨rfl,fresh⟩ := own
      have token : s.entries .token ≠ none :=
        token_of_busy held found (by rw [Call.idle,writing])
      exact ⟨owner,Option.some.inj taken ▸ held_write held token fresh⟩
    all_goals contradiction

def empty : State := {entries := fun _ => none}

theorem held_run {as : List Action} (run : Run State.step Undisturbed empty as t) :
    ∃ user, Held user t := by
  have initial : Held none empty := ⟨⟨by simp [empty],by simp [empty]⟩,by simp [empty],by simp [empty],
    by simp [empty]⟩
  exact run.invariant (fun s => ∃ user, Held user s) ⟨none,initial⟩ fun _ _ _ held undisturbed stepped =>
    held.elim fun _ held => held_step held undisturbed stepped

/-- Whatever has been answered in whatever order, what is stored is all about one account. -/
theorem one_account {as : List Action} (run : Run State.step Undisturbed empty as t) :
    ∃ user, OneAccount user t :=
  (held_run run).imp fun _ held => held.one

/-- Every request bears the token of the account under which its call has begun. -/
theorem bearer_began {as : List Action} (run : Run State.step Undisturbed empty as t) :
    ∀ request ∈ t.sent, request.bearer = request.began :=
  (held_run run).elim fun _ held => held.sent

def ann : Json := .map [("token",.string "t7"),("id",.int 7),("name",.string "Ann"),
  ("email",.string "ann@a.b"),("profile_img",.string "a.png"),("notification",.string "1"),
  ("isPrime",.bool false),("mode",.string "DATING")]

def ben : Json := .map [("token",.string "t9"),("id",.int 9),("name",.string "Ben"),
  ("email",.string "ben@a.b"),("profile_img",.string "b.png"),("notification",.string "1"),
  ("isPrime",.bool false),("mode",.string "FRIENDS")]

def answer (data : Json) : Response where
  statusCode := 200
  body := some (.map [("success",.bool true),("message",.string ""),("data",data)])

/-- Somebody signs in, the profile is loaded while the mode is changed, and he logs out. -/
def visit : List Action :=
  [.begin (.signIn .userSociallogin),.connected 0 true,.prefsLoaded 0,
    .responded 0 (some (answer ann)) true,.written 0,.begin (.getProfile "7"),
    .begin (.editMode "FRIENDS"),.connected 1 true,.connected 2 true,.prefsLoaded 2,.prefsLoaded 1,
    .responded 1 (some (answer ann)) true,.written 1,.responded 2 (some (answer .null)) true,
    .written 1]

theorem one_account_visit : ∃ t, Run State.step Undisturbed empty visit t ∧
    t.entries .mode = some ⟨.string "DATING",some "7"⟩ ∧ ∃ user, OneAccount user t := by
  have computed : ∃ t, Run State.step Undisturbed empty visit t ∧
      t.entries .mode = some ⟨.string "DATING",some "7"⟩ := Run.exists_of_exec (by decide +kernel)
  obtain ⟨t,run,mode⟩ := computed
  exact ⟨t,run,mode,one_account run⟩

/-- Without that order a profile that comes late is stored for whoever has signed in since. -/
example : ∃ t, Run State.step anyStep empty
    [.begin (.signIn .userLogin),.connected 0 true,.prefsLoaded 0,.responded 0 (some (answer ann)) true,
      .begin (.getProfile "7"),.connected 1 true,.prefsLoaded 1,.begin .logout,.connected 2 true,
      .prefsLoaded 2,.responded 2 (some (answer .null)) true,.begin (.signIn .userLogin),
      .connected 3 true,.prefsLoaded 3,.responded 3 (some (answer ben)) true,
      .responded 1 (some (answer ann)) true] t ∧
    t.entries .userId = some ⟨.string "9",some "9"⟩ ∧
      t.entries .name = some ⟨.string "Ann",some "7"⟩ := Run.exists_of_exec (by decide +kernel)

theorem bearer_began_visit : ∃ t, Run State.step Undisturbed empty visit t ∧
    t.sent = [⟨some "7",some "7"⟩,⟨some "7",some "7"⟩] ∧
      ∀ request ∈ t.sent, request.bearer = request.began := by
  have computed : ∃ t, Run State.step Undisturbed empty visit t ∧
      t.sent = [⟨some "7",some "7"⟩,⟨some "7",some "7"⟩] := Run.exists_of_exec (by decide +kernel)
  obtain ⟨t,run,sent⟩ := computed
  exact ⟨t,run,sent,bearer_began run⟩

end Step

end Neuro.AccountPrefs
