import Neuro.ChatScreen
import Mathlib.Data.List.Basic
import Mathlib.Data.Sym.Sym2

/-! The key of a 1:1 conversation. Both users compute it from the two ids, and it is
built once in `readLocal` of the chat screen and once in `setList` of the inbox. -/
namespace Neuro.ConversationId
open ChatScreen

/-- User ids are issued by the server as decimal numbers. -/
structure UserId where
  text : String
  nonempty : text ≠ ""
  decimal : ∀ c ∈ text.toList, c.isDigit = true

theorem UserId.ext_text {a b : UserId} (same : a.text = b.text) : a = b := by
  cases a
  cases b
  cases same
  rfl

/-- The copy in `setList`. -/
def setListGroupChatId (hash : String → Nat) (currentUserId peerId : String) : String :=
  if hash currentUserId ≤ hash peerId then currentUserId ++ "-" ++ peerId
  else peerId ++ "-" ++ currentUserId

/-- What the two devices and the two copies have to agree on for users `a` and `b`. -/
structure Agreed (hash : String → Nat) (a b : String) : Prop where
  devices : groupChatId hash a b = groupChatId hash b a
  inbox : setListGroupChatId hash a b = groupChatId hash a b

def Separate (hash : String → Nat) (a b c d : UserId) : Prop :=
  groupChatId hash a.text b.text = groupChatId hash c.text d.text → s(a,b) = s(c,d)

variable (hash : String → Nat)

/-- A user id holds no separator, so the two ids can be read off the key. -/
theorem ids_of_joined {a b c d : UserId}
    (same : a.text ++ "-" ++ b.text = c.text ++ "-" ++ d.text) : a = c ∧ b = d := by
  have separator (u : UserId) : '-' ∉ u.text.toList := by
    intro member
    exact absurd (u.decimal _ member) (by decide)
  have lists : a.text.toList ++ '-' :: b.text.toList = c.text.toList ++ '-' :: d.text.toList := by
    simpa using congrArg String.toList same
  obtain ⟨first,_,second⟩ :=
    (List.append_cons_inj_of_notMem (separator a) (separator b)).mp lists
  constructor
  · apply UserId.ext_text
    exact String.ext first
  · apply UserId.ext_text
    exact String.ext second

theorem groupChatId_cases (a b : String) : groupChatId hash a b = a ++ "-" ++ b ∨
    groupChatId hash a b = b ++ "-" ++ a := by
  unfold groupChatId
  split
  · exact .inl rfl
  · exact .inr rfl

theorem separate (a b c d : UserId) : Separate hash a b c d := by
  intro same
  rcases groupChatId_cases hash a.text b.text with left | left <;>
    rcases groupChatId_cases hash c.text d.text with right | right <;>
    rw [left,right] at same <;>
    obtain ⟨rfl,rfl⟩ := ids_of_joined same
  · rfl
  · exact Sym2.eq_swap
  · exact Sym2.eq_swap
  · rfl

theorem groupChatId_comm_of_ne {a b : String} (different : hash a ≠ hash b) :
    groupChatId hash a b = groupChatId hash b a := by
  unfold groupChatId
  rcases Nat.lt_or_gt_of_ne different with less | greater
  · rw [if_pos (Nat.le_of_lt less),if_neg (Nat.not_le_of_lt less)]
  · rw [if_neg (Nat.not_le_of_lt greater),if_pos (Nat.le_of_lt greater)]

theorem devices_differ {a b : UserId} (collide : hash a.text = hash b.text) (other : a ≠ b) :
    groupChatId hash a.text b.text ≠ groupChatId hash b.text a.text := by
  intro same
  rw [groupChatId,groupChatId,if_pos (Nat.le_of_eq collide),if_pos (Nat.le_of_eq collide.symm)]
    at same
  exact other (ids_of_joined same).1

/-- The key is the one of the unordered pair exactly when the hash tells the two
users apart. -/
theorem key_of_pair (a b c d : UserId) :
    Agreed hash a.text b.text ∧ Separate hash a b c d ↔
      (hash a.text = hash b.text → a = b) := by
  constructor
  · rintro ⟨agreed,_⟩ collide
    by_contra other
    exact devices_differ hash collide other agreed.devices
  · intro apart
    refine ⟨⟨?_,rfl⟩,separate hash a b c d⟩
    by_cases collide : hash a.text = hash b.text
    · rw [apart collide]
    · exact groupChatId_comm_of_ne hash collide

def one : UserId := ⟨"1",by simp,by simp⟩
def two : UserId := ⟨"2",by simp,by simp⟩

/-- Two users whose ids collide write to two conversations. -/
theorem key_of_colliding_pair : ∃ hash : String → Nat,
    groupChatId hash one.text two.text = "1-2" ∧ groupChatId hash two.text one.text = "2-1" ∧
      ¬ Agreed hash one.text two.text := by
  refine ⟨fun _ => 0,by decide,by decide,?_⟩
  intro agreed
  exact absurd agreed.devices (by decide)

end Neuro.ConversationId
