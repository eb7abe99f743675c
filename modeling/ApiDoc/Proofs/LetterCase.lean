import Mathlib.Data.List.Basic
import ApiDoc.Text.Case

/-!
# Letter case of plain texts

On ASCII, and on characters that have no case, the tables change a text character by
character, and they change ASCII letters only.
-/

set_option autoImplicit false

namespace ApiDoc.Text

def IsPlain (c : Char) : Prop :=
  isAscii c = true ∨ lowerChar c = [c] ∧ upperChar c = [c] ∧ isUppercase c = false

variable {c : Char} {cs : List Char}

theorem isUpper_iff : c.isUpper = true ↔ 65 ≤ c.toNat ∧ c.toNat ≤ 90 :=
  decide_eq_true_iff (p := 65 ≤ c.toNat ∧ c.toNat ≤ 90)

theorem isLower_iff : c.isLower = true ↔ 97 ≤ c.toNat ∧ c.toNat ≤ 122 := by
  have hand : c.isLower = (decide (97 ≤ c.toNat) && decide (c.toNat ≤ 122)) := rfl
  rw [hand, Bool.and_eq_true, decide_eq_true_iff, decide_eq_true_iff]

theorem isAlpha_iff : c.isAlpha = true ↔ c.isUpper = true ∨ c.isLower = true :=
  Bool.or_eq_true_iff

theorem isAscii_of_isAlpha (hc : c.isAlpha) : isAscii c = true := by
  apply decide_eq_true
  rcases isAlpha_iff.mp hc with hc | hc
  · exact Nat.lt_of_le_of_lt (isUpper_iff.mp hc).2 (by decide)
  · exact Nat.lt_of_le_of_lt (isLower_iff.mp hc).2 (by decide)

theorem not_isAlpha (hc : isAscii c = false) : c.isAlpha = false := by
  by_contra hletter
  rw [isAscii_of_isAlpha (by simpa using hletter)] at hc
  cases hc

theorem isUpper_eq_false (hc : isAscii c = false) : c.isUpper = false :=
  (Bool.or_eq_false_iff.mp (not_isAlpha hc)).1

theorem isLower_eq_false (hc : isAscii c = false) : c.isLower = false :=
  (Bool.or_eq_false_iff.mp (not_isAlpha hc)).2

/-- What holds of the 128 characters of ASCII holds of a character of ASCII. -/
theorem forall_ascii {P : Char → Prop} (h : ∀ n : Fin 128, P (Char.ofNat n))
    (hc : isAscii c = true) : P c := by
  have hlt : c.toNat < 128 := of_decide_eq_true hc
  have hp := h ⟨c.toNat, hlt⟩
  rwa [Char.ofNat_toNat] at hp

theorem toLower_of_not_ascii (hc : isAscii c = false) : c.toLower = c := by
  have hcap : ¬ (65 ≤ c.toNat ∧ c.toNat ≤ 90) := fun h =>
    Bool.eq_false_iff.mp (isUpper_eq_false hc) (isUpper_iff.mpr h)
  exact dif_neg hcap

theorem toUpper_of_not_ascii (hc : isAscii c = false) : c.toUpper = c := by
  have hsmall : ¬ (97 ≤ c.toNat ∧ c.toNat ≤ 122) := fun h =>
    Bool.eq_false_iff.mp (isLower_eq_false hc) (isLower_iff.mpr h)
  exact dif_neg hsmall

theorem toLower_eq_self_iff : c.toLower = c ↔ c.isUpper = false := by
  cases hc : isAscii c with
  | true => exact forall_ascii (P := fun c => c.toLower = c ↔ c.isUpper = false) (by decide) hc
  | false => simp [toLower_of_not_ascii hc, isUpper_eq_false hc]

theorem toUpper_eq_self_iff : c.toUpper = c ↔ c.isLower = false := by
  cases hc : isAscii c with
  | true => exact forall_ascii (P := fun c => c.toUpper = c ↔ c.isLower = false) (by decide) hc
  | false => simp [toUpper_of_not_ascii hc, isLower_eq_false hc]

@[simp]
theorem toUpper_toLower (c : Char) : c.toLower.toUpper = c.toUpper := by
  cases hc : isAscii c with
  | true => exact forall_ascii (P := fun c => c.toLower.toUpper = c.toUpper) (by decide) hc
  | false => rw [toLower_of_not_ascii hc]

@[simp]
theorem toLower_toUpper (c : Char) : c.toUpper.toLower = c.toLower := by
  cases hc : isAscii c with
  | true => exact forall_ascii (P := fun c => c.toUpper.toLower = c.toLower) (by decide) hc
  | false => rw [toUpper_of_not_ascii hc]

theorem isAlpha_toLower (c : Char) : c.toLower.isAlpha = c.isAlpha := by
  cases hc : isAscii c with
  | true => exact forall_ascii (P := fun c => c.toLower.isAlpha = c.isAlpha) (by decide) hc
  | false => rw [toLower_of_not_ascii hc]

theorem isAlpha_toUpper (c : Char) : c.toUpper.isAlpha = c.isAlpha := by
  cases hc : isAscii c with
  | true => exact forall_ascii (P := fun c => c.toUpper.isAlpha = c.isAlpha) (by decide) hc
  | false => rw [toUpper_of_not_ascii hc]

theorem toUpper_capital (hc : c.isUpper = true) : c.toUpper = c :=
  forall_ascii (P := fun c => c.isUpper = true → c.toUpper = c) (by decide)
    (isAscii_of_isAlpha (isAlpha_iff.mpr (Or.inl hc))) hc

theorem isUpper_eq_false_of_isLower (hc : c.isLower = true) : c.isUpper = false :=
  forall_ascii (P := fun c => c.isLower = true → c.isUpper = false) (by decide)
    (isAscii_of_isAlpha (isAlpha_iff.mpr (Or.inr hc))) hc

/-- No letter of the other case stands for a character that is no letter. -/
theorem eq_of_toLower_eq {mark : Char} (hm : mark.isAlpha = false) (hc : c.toLower = mark) :
    c = mark := by
  have hletter : c.isAlpha = false := by rw [← isAlpha_toLower, hc, hm]
  rw [← hc]
  exact (toLower_eq_self_iff.mpr (Bool.or_eq_false_iff.mp hletter).1).symm

theorem eq_of_toUpper_eq {mark : Char} (hm : mark.isAlpha = false) (hc : c.toUpper = mark) :
    c = mark := by
  have hletter : c.isAlpha = false := by rw [← isAlpha_toUpper, hc, hm]
  rw [← hc]
  exact (toUpper_eq_self_iff.mpr (Bool.or_eq_false_iff.mp hletter).2).symm

theorem map_toLower_eq_self_iff : cs.map Char.toLower = cs ↔ ∀ c ∈ cs, c.isUpper = false := by
  have hid : cs.map Char.toLower = cs.map id ↔ ∀ c ∈ cs, c.toLower = c := List.map_inj_left
  rw [List.map_id] at hid
  exact hid.trans (forall₂_congr fun _ _ => toLower_eq_self_iff)

namespace IsPlain

theorem lowerChar_eq (hc : IsPlain c) : lowerChar c = [c.toLower] := by
  cases hascii : isAscii c with
  | true => rw [lowerChar, if_pos hascii]
  | false =>
    rw [toLower_eq_self_iff.mpr (isUpper_eq_false hascii)]
    exact (hc.resolve_left (by simp [hascii])).1

theorem upperChar_eq (hc : IsPlain c) : upperChar c = [c.toUpper] := by
  cases hascii : isAscii c with
  | true => rw [upperChar, if_pos hascii]
  | false =>
    rw [toUpper_eq_self_iff.mpr (isLower_eq_false hascii)]
    exact (hc.resolve_left (by simp [hascii])).2.1

theorem isUppercase_eq (hc : IsPlain c) : isUppercase c = c.isUpper := by
  cases hascii : isAscii c with
  | true => rw [isUppercase, if_pos hascii]
  | false =>
    rw [isUpper_eq_false hascii]
    exact (hc.resolve_left (by simp [hascii])).2.2

theorem toLower (hc : IsPlain c) : IsPlain c.toLower := by
  cases hcap : c.isUpper with
  | true =>
    have hletter : c.isAlpha = true := isAlpha_iff.mpr (Or.inl hcap)
    exact Or.inl (isAscii_of_isAlpha (by rw [isAlpha_toLower, hletter]))
  | false => rwa [toLower_eq_self_iff.mpr hcap]

theorem not_sigma : ¬ IsPlain 'Σ' := by
  have hcap : isUppercase 'Σ' = true := by decide +kernel
  intro h
  rw [h.isUppercase_eq] at hcap
  exact absurd hcap (by decide)

end IsPlain

theorem lowerFrom_plain (hcs : ∀ c ∈ cs, IsPlain c) (before : List Char) :
    lowerFrom before cs = cs.map Char.toLower := by
  induction cs generalizing before with
  | nil => rfl
  | cons c cs ih =>
    have hc := hcs c List.mem_cons_self
    have hsigma : c ≠ 'Σ' := fun h => IsPlain.not_sigma (h ▸ hc)
    rw [lowerFrom, if_neg hsigma, hc.lowerChar_eq, ih fun d hd => hcs d (List.mem_cons_of_mem _ hd)]
    rfl

theorem toLower_plain (hcs : ∀ c ∈ cs, IsPlain c) : toLower cs = cs.map Char.toLower :=
  lowerFrom_plain hcs []

theorem toUpper_plain (hcs : ∀ c ∈ cs, IsPlain c) : toUpper cs = cs.map Char.toUpper := by
  rw [toUpper, List.flatMap_congr fun c hc => (hcs c hc).upperChar_eq]
  exact List.flatMap_pure_eq_map _ _

theorem toUpper_flatten (pieces : List (List Char)) :
    toUpper pieces.flatten = (pieces.map toUpper).flatten := by
  rw [List.flatten_eq_flatMap, toUpper, List.flatMap_assoc, List.flatten_eq_flatMap,
    List.flatMap_map]
  rfl

theorem toUpper_intercalate (sep : List Char) (pieces : List (List Char)) :
    toUpper (sep.intercalate pieces) = (toUpper sep).intercalate (pieces.map toUpper) := by
  induction pieces with
  | nil => rfl
  | cons piece pieces ih =>
    cases pieces with
    | nil => simp only [List.map_cons, List.map_nil, List.intercalate_singleton]
    | cons next pieces =>
      rw [List.intercalate_cons_cons, List.map_cons, List.map_cons, List.intercalate_cons_cons,
        ← List.map_cons, ← ih, toUpper, List.flatMap_append, List.flatMap_append]
      rfl

end ApiDoc.Text
