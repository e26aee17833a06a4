import Mathlib.Data.Rat.Defs
import ProxboxApi.Dict

/-! JSON values as Python reads them: integers and floats apart, objects in key order of
arrival. -/

inductive Json where
  | null
  | bool (b : Bool)
  | int (n : Int)
  | float (q : ℚ)
  | str (s : String)
  | arr (items : List Json)
  | obj (fields : List (String × Json))
  deriving Repr, Inhabited

namespace Json

abbrev Fields := List (String × Json)

/-- The value of a Python `bool`, `int` or `float`. -/
def number : Json → Option ℚ
  | bool b => some (if b then 1 else 0)
  | int n => some n
  | float q => some q
  | _ => none

mutual

/-- `==`: numbers by value, objects whatever the order of their keys. -/
def pyEq : Json → Json → Bool
  | null, null => true
  | str s, str t => s == t
  | arr xs, arr ys => pyEqItems xs ys
  | obj xs, obj ys => xs.length == ys.length && pyEqFields xs ys
  | bool b, y => y.number == some (if b then 1 else 0)
  | int n, y => y.number == some (n : ℚ)
  | float q, y => y.number == some q
  | _, _ => false

def pyEqItems : List Json → List Json → Bool
  | [], [] => true
  | x :: xs, y :: ys => pyEq x y && pyEqItems xs ys
  | _, _ => false

/-- Every field of the first object is in the second with an equal value. -/
def pyEqFields : List (String × Json) → List (String × Json) → Bool
  | [], _ => true
  | (k, x) :: xs, ys => (match Dict.get k ys with
    | some y => pyEq x y
    | none => false) && pyEqFields xs ys

end

mutual

/-- Objects have each key once, as dictionaries do. -/
def wf : Json → Bool
  | arr items => wfItems items
  | obj fields => decide (Dict.keys fields).Nodup && wfFields fields
  | _ => true

def wfItems : List Json → Bool
  | [] => true
  | x :: xs => wf x && wfItems xs

def wfFields : List (String × Json) → Bool
  | [] => true
  | (_, x) :: xs => wf x && wfFields xs

end

theorem pyEqFields_iff {xs ys : Fields} : pyEqFields xs ys = true ↔
    ∀ kv ∈ xs, ∃ y, Dict.get kv.1 ys = some y ∧ pyEq kv.2 y = true := by
  induction xs with
  | nil => simp [pyEqFields]
  | cons kv xs ih =>
    obtain ⟨k, x⟩ := kv
    rw [pyEqFields, Bool.and_eq_true, ih, List.forall_mem_cons]
    refine and_congr_left' ?_
    cases Dict.get k ys with
    | none => simp
    | some y => simp

theorem pyEq_obj_iff {xs ys : Fields} : pyEq (obj xs) (obj ys) = true ↔
    xs.length = ys.length ∧
      ∀ kv ∈ xs, ∃ y, Dict.get kv.1 ys = some y ∧ pyEq kv.2 y = true := by
  rw [pyEq, Bool.and_eq_true, beq_iff_eq, pyEqFields_iff]

theorem wf_obj_iff {fields : Fields} :
    wf (obj fields) = true ↔ (Dict.keys fields).Nodup ∧ wfFields fields = true := by
  rw [wf, Bool.and_eq_true, decide_eq_true_eq]

theorem wf_of_mem {fields : Fields} (h : wfFields fields = true) :
    ∀ kv ∈ fields, wf kv.2 = true := by
  induction fields with
  | nil => simp
  | cons kv fields ih =>
    obtain ⟨k, x⟩ := kv
    rw [wfFields, Bool.and_eq_true] at h
    rw [List.forall_mem_cons]
    exact ⟨h.1, ih h.2⟩

mutual

theorem pyEq_refl : ∀ {j : Json}, wf j = true → pyEq j j = true
  | null, _ => rfl
  | bool b, _ => by simp [pyEq, number]
  | int n, _ => by simp [pyEq, number]
  | float q, _ => by simp [pyEq, number]
  | str s, _ => by simp [pyEq]
  | arr items, h => by
    rw [wf] at h
    rw [pyEq]
    exact pyEqItems_refl h
  | obj fields, h => by
    obtain ⟨hkeys, hfields⟩ := wf_obj_iff.mp h
    rw [pyEq_obj_iff]
    refine ⟨rfl, ?_⟩
    intro kv hkv
    exact ⟨kv.2, Dict.get_of_mem hkeys hkv, pyEqFields_refl hfields kv hkv⟩

theorem pyEqItems_refl : ∀ {xs : List Json}, wfItems xs = true → pyEqItems xs xs = true
  | [], _ => rfl
  | x :: xs, h => by
    rw [wfItems, Bool.and_eq_true] at h
    rw [pyEqItems, Bool.and_eq_true]
    exact ⟨pyEq_refl h.1, pyEqItems_refl h.2⟩

theorem pyEqFields_refl : ∀ {xs : List (String × Json)}, wfFields xs = true →
    ∀ kv ∈ xs, pyEq kv.2 kv.2 = true
  | [], _, kv, hkv => by simp at hkv
  | (k, x) :: xs, h, kv, hkv => by
    rw [wfFields, Bool.and_eq_true] at h
    rcases List.mem_cons.mp hkv with rfl | hkv
    · exact pyEq_refl h.1
    · exact pyEqFields_refl h.2 kv hkv

end

/-- `value is None`. -/
def isNull : Json → Bool
  | null => true
  | _ => false

/-- `value in (None, "")`. -/
def blank : Json → Bool
  | null => true
  | str s => s == ""
  | _ => false

/-- Lists and dictionaries cannot be members of a set. -/
def hashable : Json → Bool
  | arr _ | obj _ => false
  | _ => true

end Json
