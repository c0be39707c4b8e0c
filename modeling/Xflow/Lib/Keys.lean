import Mathlib.Data.String.Basic
import Mathlib.Data.List.Basic

/-!
# Keys joined from parts

A key is joined from two parts by a separator.  It determines both of them if the separator is not
in the first one, or not in the second one (`join_inj`, `join_inj_right`).  The decimal form of an
integer does not contain a separator that is neither a digit nor a sign (`intKey_inj`,
`keyInt_inj`).
-/

namespace Keys

open List Nat

/-! ### Separators -/

section

variable {α : Type*} {c : α} {a a' b b' : List α} (h : a ++ c :: b = a' ++ c :: b')

include h

theorem append_cons_inj (ha : c ∉ a) (ha' : c ∉ a') :
  a = a' ∧ b = b'
  := by
  classical
  -- the first parts end where the separator comes first
  have hlength : a.length = a'.length := by
    simpa [idxOf_append_of_notMem, ha, ha'] using congrArg (idxOf c) h
  obtain ⟨rfl, hrest⟩ := append_inj h hlength
  exact ⟨rfl, (cons.inj hrest).2⟩

theorem append_cons_inj_right (hb : c ∉ b) (hb' : c ∉ b') :
  a = a' ∧ b = b'
  := by
  have hrev := congrArg reverse h
  simp only [reverse_append, reverse_cons, append_assoc, singleton_append]
    at hrev
  obtain ⟨h₁, h₂⟩ := append_cons_inj hrev (by simpa using hb) (by simpa using hb')
  rw [reverse_inj] at h₁ h₂
  exact ⟨h₂, h₁⟩

end

section

variable {c : Char} {s s' t t' : String}
  (h : s ++ (String.singleton c ++ t) = s' ++ (String.singleton c ++ t'))

include h

theorem toList_join : s.toList ++ c :: t.toList = s'.toList ++ c :: t'.toList
  := by
  simpa using congrArg String.toList h

theorem join_inj (hs : c ∉ s.toList) (hs' : c ∉ s'.toList) :
  s = s' ∧ t = t'
  := by
  obtain ⟨h₁, h₂⟩ := append_cons_inj (toList_join h) hs hs'
  exact ⟨String.toList_injective h₁, String.toList_injective h₂⟩

theorem join_inj_right (ht : c ∉ t.toList) (ht' : c ∉ t'.toList) :
  s = s' ∧ t = t'
  := by
  obtain ⟨h₁, h₂⟩ := append_cons_inj_right (toList_join h) ht ht'
  exact ⟨String.toList_injective h₁, String.toList_injective h₂⟩

end

/-! ### Decimal forms -/

theorem notMem_toDigits {c : Char} (hdigit : ¬ c.isDigit) (n : Nat) :
  c ∉ toDigits 10 n
  := by
  intro h
  apply hdigit (isDigit_of_mem_toDigits (by decide) (by decide) h)

theorem toList_toString (i : Int) :
  (toString i).toList = if i < 0 then '-' :: toDigits 10 i.natAbs else toDigits 10 i.natAbs
  := by
  cases i with
  | ofNat n =>
    apply toList_repr
  | negSucc n =>
    rw [if_pos (Int.negSucc_lt_zero n)]
    show ("-" ++ n.succ.repr).toList = _
    rw [String.toList_append, toList_repr]
    rfl

theorem notMem_toString {c : Char} (hdigit : ¬ c.isDigit) (hsign : c ≠ '-') (i : Int) :
  c ∉ (toString i).toList
  := by
  rw [toList_toString]
  split
  · simp [hsign, notMem_toDigits hdigit]
  · apply notMem_toDigits hdigit

theorem toString_int_inj {i j : Int} (h : toString i = toString j) :
  i = j
  := by
  have hsign (n : Nat) : '-' ∉ toDigits 10 n := notMem_toDigits (by decide) n
  have habs {m n : Nat} (h : toDigits 10 m = toDigits 10 n) : m = n := by
    have := congrArg (fun ds => ofDigitChars 10 ds 0) h
    simpa using this
  have hlist := congrArg String.toList h
  rw [toList_toString, toList_toString] at hlist
  split at hlist <;> split at hlist
  · have := habs (cons.inj hlist).2
    omega
  · have := hsign j.natAbs
    simp [← hlist] at this
  · have := hsign i.natAbs
    simp [hlist] at this
  · have := habs hlist
    omega

/-! ### Keys -/

section

variable {c : Char} (hdigit : ¬ c.isDigit) (hsign : c ≠ '-')

include hdigit hsign

theorem intKey_inj {i j : Int} {s s' : String}
    (h : toString i ++ String.singleton c ++ s = toString j ++ String.singleton c ++ s') :
  i = j ∧ s = s'
  := by
  rw [String.append_assoc, String.append_assoc] at h
  apply (join_inj h (notMem_toString hdigit hsign i) (notMem_toString hdigit hsign j)).imp_left
  apply toString_int_inj

theorem keyInt_inj {i j : Int} {s s' : String}
    (h : s ++ String.singleton c ++ toString i = s' ++ String.singleton c ++ toString j) :
  s = s' ∧ i = j
  := by
  rw [String.append_assoc, String.append_assoc] at h
  apply (join_inj_right h (notMem_toString hdigit hsign i)
    (notMem_toString hdigit hsign j)).imp_right toString_int_inj

end

end Keys
