import Neuro.Lib.Json
import Neuro.Lib.Store

/-! What the three sign-in calls of `RegisterRepository` leave in the preferences.
The keys are written one at a time from the decoded response, and a field that is
missing or of another type throws between two of them. -/
namespace Neuro.SignIn
open Neuro.Lib

inductive Key
  | name
  | email
  | userId
  | isLogin
  | token
  | profileImage
  | notification
  | isPrime
  | mode
  deriving DecidableEq, Repr

inductive Value
  | string (value : String)
  | bool (value : Bool)
  deriving DecidableEq, Repr

abbrev Prefs := Store Key Value

/-- The body is `none` when it does not decode. -/
structure Response where
  statusCode : Nat
  body : Option Json

structure Register where
  error : String
  isDone : Bool
  deriving DecidableEq, Repr

/-- The arguments of `setString` and `setBool`; a value of another type throws. -/
def string (value : Option Json) : Option Value := (value.bind Json.asString).map .string
def bool (value : Option Json) : Option Value := (value.bind Json.asBool).map .bool
def printed (value : Option Json) : Option Value := value.map fun json => .string json.text

/-- The writes of `userLogin` and, with the fields of `userData['user']`, of
`userRegister`. -/
def fields (userData : Json) (field : String → Option Json) : List (Key × Option Value) :=
  [(.token,string (userData.index "token")),
    (.userId,printed (field "id")),
    (.name,printed (field "name")),
    (.email,printed (field "email")),
    (.profileImage,printed (field "profile_img")),
    (.notification,printed (field "notification")),
    (.isPrime,bool (field "isPrime")),
    (.mode,string (field "mode"))]

/-- The writes of `userSociallogin`, which skips a mode that is null. -/
def socialFields (userData : Json) : List (Key × Option Value) :=
  [(.token,string (userData.index "token")),
    (.userId,printed (userData.index "id")),
    (.name,printed (userData.index "name")),
    (.email,printed (userData.index "email")),
    (.profileImage,printed (userData.index "profile_img")),
    (.isPrime,bool (userData.index "isPrime"))] ++
  (if (userData.index "mode").any Json.isNull then []
    else [(.mode,string (userData.index "mode"))]) ++
  [(.notification,printed (userData.index "notification"))]

def userField (userData : Json) (key : String) : Option Json :=
  (userData.index "user").bind fun user => user.index key

/-- `none` when `res['message']` throws. -/
def returnData (res : Json) (isDone : Bool) : Option Register :=
  ((res.index "message").bind Json.asString).map fun error => ⟨error,isDone⟩

def decline (res : Json) (pref : Prefs) : Prefs × Option Register :=
  (pref.set .isLogin (.bool false),returnData res false)

def signIn (writes : Json → List (Key × Option Value)) (res : Json) (pref : Prefs) :
    Prefs × Option Register :=
  match (res.index "success").bind Json.asBool with
  | none => (pref,none)
  | some false => decline res pref
  | some true => match res.index "data" with
    | some (.map entries) =>
      let sets := writes (.map entries) ++ [(.isLogin,some (.bool true))]
      (pref.assign sets,if sets.all fun e => e.2.isSome then returnData res true else none)
    | _ => (pref,none)

/-- The status is not looked at. -/
def userRegister (response : Response) (pref : Prefs) : Prefs × Option Register :=
  match response.body with
  | none => (pref,none)
  | some res => signIn (fun userData => fields userData (userField userData)) res pref

def userLogin (response : Response) (pref : Prefs) : Prefs × Option Register :=
  match response.body with
  | none => (pref,none)
  | some res =>
    if response.statusCode = 200 then signIn (fun userData => fields userData userData.index) res pref
    else decline res pref

def userSociallogin (response : Response) (pref : Prefs) : Prefs × Option Register :=
  match response.body with
  | none => (pref,none)
  | some res =>
    if response.statusCode = 200 then signIn socialFields res pref else decline res pref

/-- `getModeData` of the feeds screen; `none` when its non-null assertion fails. -/
def getModeData (pref : Prefs) : Option String :=
  match pref .mode with
  | some (.string mode) => some mode
  | _ => none

inductive Call
  | userRegister
  | userLogin
  | userSociallogin
  deriving DecidableEq, Repr

def Call.run : Call → Response → Prefs → Prefs × Option Register
  | .userRegister => SignIn.userRegister
  | .userLogin => SignIn.userLogin
  | .userSociallogin => SignIn.userSociallogin

def sessionKeys : List Key :=
  [.token,.userId,.name,.email,.profileImage,.notification,.isPrime,.mode]

inductive Reply
  | failed
  | declined
  | accepted (userData : Json)

def signInReply (res : Json) : Reply :=
  match (res.index "success").bind Json.asBool with
  | none => .failed
  | some false => .declined
  | some true => match res.index "data" with
    | some (.map entries) => .accepted (.map entries)
    | _ => .failed

def reply (call : Call) (response : Response) : Reply :=
  match response.body with
  | none => .failed
  | some res =>
    if call = .userRegister ∨ response.statusCode = 200 then signInReply res else .declined

def writes : Call → Json → List (Key × Option Value)
  | .userRegister,userData => fields userData (userField userData)
  | .userLogin,userData => fields userData userData.index
  | .userSociallogin,userData => socialFields userData

/-- The values of the response, one for each key; `none` for one of another type. -/
def values : Call → Json → List (Key × Option Value)
  | .userRegister,userData => fields userData (userField userData)
  | .userLogin,userData | .userSociallogin,userData => fields userData userData.index

structure SignedIn (call : Call) (userData : Json) (after : Prefs) : Prop where
  held : ∀ e ∈ values call userData, e.2 ≠ none ∧ after e.1 = e.2
  login : after .isLogin = some (.bool true)

structure Untouched (before after : Prefs) : Prop where
  same : ∀ key ∈ sessionKeys, after key = before key
  login : after .isLogin ≠ some (.bool true)

def Atomic (call : Call) (response : Response) (before after : Prefs) : Prop :=
  (∃ userData, reply call response = .accepted userData ∧ SignedIn call userData after) ∨
    Untouched before after

/-- All fields can be stored, or nobody was signed in and the writes made before the
malformed field repeat what is stored. -/
def WellFormed (call : Call) (userData : Json) (pref : Prefs) : Prop :=
  Store.Defined (values call userData) ∨
    ¬ Store.Defined (writes call userData) ∧ pref .isLogin ≠ some (.bool true) ∧
      ∀ e ∈ (writes call userData).takeWhile (·.2.isSome), pref e.1 = e.2

def Admissible (call : Call) (response : Response) (pref : Prefs) : Prop :=
  match reply call response with
  | .failed => pref .isLogin ≠ some (.bool true)
  | .declined => True
  | .accepted userData => WellFormed call userData pref

variable {call : Call} {userData : Json} {pref : Prefs}

theorem signIn_eq (w : Json → List (Key × Option Value)) (res : Json) (pref : Prefs) :
    (signIn w res pref).1 = match signInReply res with
      | .failed => pref
      | .declined => pref.set .isLogin (.bool false)
      | .accepted userData => pref.assign (w userData ++ [(.isLogin,some (.bool true))]) := by
  unfold signIn signInReply
  split
  · rfl
  · rfl
  · split <;> rfl

theorem run_eq (call : Call) (response : Response) (pref : Prefs) :
    (call.run response pref).1 = match reply call response with
      | .failed => pref
      | .declined => pref.set .isLogin (.bool false)
      | .accepted userData =>
        pref.assign (writes call userData ++ [(.isLogin,some (.bool true))]) := by
  obtain ⟨status,body⟩ := response
  cases body with
  | none => cases call <;> rfl
  | some res =>
    by_cases ok : status = 200
    · cases call <;> simp only [Call.run,userRegister,userLogin,userSociallogin,reply,ok,or_true,
        if_true] <;> exact signIn_eq _ res pref
    · cases call <;> simp only [Call.run,userRegister,userLogin,userSociallogin,reply,ok,
        reduceCtorEq,or_false,if_true,if_false,decline]
      exact signIn_eq _ res pref

theorem keys_distinct (call : Call) (userData : Json) :
    ((writes call userData).map Prod.fst).Nodup := by
  cases call with
  | userRegister => exact (by decide : sessionKeys.Nodup)
  | userLogin => exact (by decide : sessionKeys.Nodup)
  | userSociallogin =>
    rw [writes,socialFields]
    split <;> simp

theorem keys_inside (call : Call) (userData : Json) :
    ∀ e ∈ writes call userData, e.1 ∈ sessionKeys := by
  cases call with
  | userRegister => simp [writes,fields,sessionKeys]
  | userLogin => simp [writes,fields,sessionKeys]
  | userSociallogin =>
    rw [writes,socialFields]
    split <;> simp [sessionKeys]

theorem writes_values (call : Call) (userData : Json) :
    ∀ e ∈ writes call userData, e ∈ values call userData := by
  cases call with
  | userRegister => exact fun _ => id
  | userLogin => exact fun _ => id
  | userSociallogin =>
    rw [writes,socialFields,values,fields]
    split <;> simp

theorem values_writes (defined : Store.Defined (values call userData)) :
    ∀ e ∈ values call userData, e ∈ writes call userData := by
  cases call with
  | userRegister => exact fun _ => id
  | userLogin => exact fun _ => id
  | userSociallogin =>
    -- a mode that can be stored is not null
    have stored : string (userData.index "mode") ≠ none :=
      defined (.mode,string (userData.index "mode")) (by simp [values,fields])
    have present : ¬ ((userData.index "mode").any Json.isNull) = true := by
      cases mode : userData.index "mode" with
      | none => simp
      | some json =>
        rw [mode] at stored
        cases read : json.asString with
        | none => simp [string,read] at stored
        | some value => simp [Json.isNull_of_asString read]
    rw [writes,socialFields,if_neg present,values,fields]
    simp

theorem isLogin_not_written (call : Call) (userData : Json) :
    Key.isLogin ∉ (writes call userData).map Prod.fst := by
  intro member
  obtain ⟨e,written,login⟩ := List.mem_map.mp member
  have key := keys_inside call userData e written
  rw [login] at key
  exact absurd key (by decide)

theorem signedIn_iff (defined : Store.Defined (writes call userData)) :
    SignedIn call userData (pref.assign (writes call userData ++ [(.isLogin,some (.bool true))])) ↔
      Store.Defined (values call userData) := by
  have login : Store.Defined (writes call userData ++ [(.isLogin,some (.bool true))]) :=
    List.forall_mem_append.mpr ⟨defined,by simp⟩
  have distinct : ((writes call userData ++ [(Key.isLogin,some (Value.bool true))]).map
      Prod.fst).Nodup := by
    rw [List.map_append,List.nodup_append]
    refine ⟨keys_distinct call userData,by simp,?_⟩
    rintro a member b last rfl
    rw [List.map_singleton,List.mem_singleton] at last
    subst last
    exact isLogin_not_written call userData member
  have stored (e : Key × Option Value) :
      e ∈ writes call userData ++ [(.isLogin,some (.bool true))] →
        pref.assign (writes call userData ++ [(.isLogin,some (.bool true))]) e.1 = e.2 :=
    Store.assign_of_mem distinct login e
  constructor
  · exact fun signed e member => (signed.held e member).1
  · intro all
    constructor
    · intro e member
      exact ⟨all e member,stored e (List.mem_append_left _ (values_writes all e member))⟩
    · exact stored (.isLogin,some (.bool true)) (by simp)

/-- A malformed field ends the call with the writes made before it. -/
theorem untouched_iff {before after : List (Key × Option Value)} {key : Key}
    (shape : writes call userData = before ++ (key,none) :: after)
    (defined : Store.Defined before) :
    Untouched pref (pref.assign (writes call userData ++ [(.isLogin,some (.bool true))])) ↔
      pref .isLogin ≠ some (.bool true) ∧ ∀ e ∈ before, pref e.1 = e.2 := by
  have kept (e : Key × Option Value) (member : e ∈ before) : e ∈ writes call userData := by
    rw [shape]
    exact List.mem_append_left _ member
  have distinct : (before.map Prod.fst).Nodup := by
    have whole := keys_distinct call userData
    rw [shape,List.map_append] at whole
    exact whole.of_append_left
  have inside (e : Key × Option Value) (member : e ∈ before) : e.1 ∈ sessionKeys :=
    keys_inside call userData e (kept e member)
  have login : Key.isLogin ∉ before.map Prod.fst := by
    intro member
    obtain ⟨e,written,equal⟩ := List.mem_map.mp member
    exact isLogin_not_written call userData (List.mem_map.mpr ⟨e,kept e written,equal⟩)
  have stops : pref.assign (writes call userData ++ [(.isLogin,some (.bool true))]) =
      pref.assign before := by
    rw [shape,List.append_assoc,List.cons_append]
    exact Store.assign_stopped defined
  have unset : pref.assign before .isLogin = pref .isLogin := Store.assign_of_not_mem login
  rw [stops,← Store.assign_same_iff distinct defined inside,← unset]
  constructor
  · exact fun untouched => ⟨untouched.login,untouched.same⟩
  · exact fun ⟨out,same⟩ => ⟨same,out⟩

theorem takeWhile_defined {before after : List (Key × Option Value)} {key : Key}
    (defined : Store.Defined before) :
    (before ++ (key,none) :: after).takeWhile (·.2.isSome) = before := by
  rw [List.takeWhile_append_of_pos fun e member => Option.isSome_iff_ne_none.mpr (defined e member)]
  simp

/-- What an accepted response leaves is the session it carries, or nothing new, exactly
when it is well formed for these preferences. -/
theorem accepted_iff (call : Call) (userData : Json) (pref : Prefs) :
    SignedIn call userData (pref.assign (writes call userData ++ [(.isLogin,some (.bool true))])) ∨
      Untouched pref (pref.assign (writes call userData ++ [(.isLogin,some (.bool true))])) ↔
    WellFormed call userData pref := by
  rcases Store.defined_or_stops (writes call userData) with defined | ⟨before,key,after,shape,known⟩
  · have login : (pref.assign (writes call userData ++ [(.isLogin,some (.bool true))])) .isLogin =
        some (.bool true) := by
      rw [Store.assign_append defined,Store.assign,Store.assign,Store.set_self]
    rw [signedIn_iff defined]
    constructor
    · rintro (all | untouched)
      · exact .inl all
      · exact absurd login untouched.login
    · rintro (all | ⟨malformed,_⟩)
      · exact .inl all
      · exact absurd defined malformed
  · have malformed : ¬ Store.Defined (writes call userData) := by
      intro all
      exact all (key,none) (by simp [shape]) rfl
    have unset : ¬ Store.Defined (values call userData) :=
      fun all => malformed fun e member => all e (writes_values call userData e member)
    rw [untouched_iff shape known,WellFormed,or_iff_right unset,and_iff_right malformed,shape,
      takeWhile_defined known]
    constructor
    · rintro (signed | untouched)
      · exact absurd (fun e member => (signed.held e member).1) unset
      · exact untouched
    · exact .inr

theorem SignedIn.present {after : Prefs} (signed : SignedIn call userData after) :
    ∀ key ∈ sessionKeys, after key ≠ none := by
  intro key member
  have listed : (values call userData).map Prod.fst = sessionKeys := by cases call <;> rfl
  rw [← listed] at member
  obtain ⟨e,held,rfl⟩ := List.mem_map.mp member
  obtain ⟨known,stored⟩ := signed.held e held
  rw [stored]
  exact known

/-- Exactly when a sign-in call is all or nothing; and then nobody is signed in without
all the keys. -/
theorem session_atomic (call : Call) (response : Response) (pref : Prefs) :
    (Atomic call response pref (call.run response pref).1 ↔ Admissible call response pref) ∧
      (Atomic call response pref (call.run response pref).1 →
        (call.run response pref).1 .isLogin = some (.bool true) →
          ∀ key ∈ sessionKeys, (call.run response pref).1 key ≠ none) := by
  constructor
  · rw [run_eq,Atomic,Admissible]
    cases reply call response with
    | failed => exact ⟨by rintro (⟨_,⟨⟩,_⟩ | same); exact same.login,fun out => .inr ⟨by simp,out⟩⟩
    | declined =>
      refine iff_of_true (.inr ⟨fun key member => Store.set_of_ne ?_ _,by simp⟩) trivial
      rintro rfl
      exact absurd member (by decide)
    | accepted userData =>
      simp only [← accepted_iff,Reply.accepted.injEq,exists_eq_left']
  · rintro (⟨userData,_,signed⟩ | untouched) login
    · exact signed.present
    · exact absurd login untouched.login

def entries : List (String × Json) :=
  [("token",.string "new"),("id",.int 2),("name",.string "Ben"),("email",.string "b@x"),
    ("profile_img",.string "b.png"),("notification",.string "1")]

def accepting (entries : List (String × Json)) : Response where
  statusCode := 200
  body := some (.map [("success",.bool true),("message",.string ""),("data",.map entries)])

/-- A social login without a mode signs the user in, and the feeds screen fails. -/
theorem session_without_mode :
    let after := (Call.userSociallogin.run (accepting (("isPrime",.bool false) :: entries))
      fun _ => none).1
    after .isLogin = some (.bool true) ∧ getModeData after = none ∧
      ¬ Atomic .userSociallogin (accepting (("isPrime",.bool false) :: entries))
        (fun _ => none) after := by
  have login : (Call.userSociallogin.run (accepting (("isPrime",.bool false) :: entries))
      fun _ => none).1 .isLogin = some (.bool true) := by decide
  have absent : (Call.userSociallogin.run (accepting (("isPrime",.bool false) :: entries))
      fun _ => none).1 .mode = none := by decide
  refine ⟨login,by rw [getModeData,absent],?_⟩
  rintro (⟨userData,_,signed⟩ | untouched)
  · exact signed.present .mode (by decide) absent
  · exact untouched.login login

def signedOut : Prefs
  | .token => some (.string "old")
  | .mode => some (.string "dating")
  | _ => none

/-- A login without `isPrime` leaves the token of one account and the mode of another. -/
example :
    let after := (Call.userLogin.run (accepting (("mode",.string "friends") :: entries))
      signedOut).1
    after .token = some (.string "new") ∧ after .mode = some (.string "dating") := by decide

end Neuro.SignIn
