/-
  Verdict.Proofs.Names — what words and names of an expression stand for.

  What spells a literal, in whatever case, begins with T, F or U in capitals, and no
  spelling of an operator does (`not_mem_spellings_of_literal`). Registration under names
  that are not reserved leaves the language's operators as they are and puts nothing in
  the way of a literal (`Grown.intact`).
-/

import Verdict.Proofs.Grammar

namespace Verdict

/-! ## Literals in capitals -/

namespace Text

theorem toNat_of_ofNat {n : Nat} {d : Char} (h : Char.ofNat n = d) (hd : d ≠ Char.ofNat 0) :
    d.toNat = n := by
  by_cases hn : n.isValidChar
  · rw [Char.ofNat, dif_pos hn] at h
    rw [← h]
    rfl
  · rw [Char.ofNat, dif_neg hn] at h
    exact absurd h.symm hd

section

variable {c d : Char} (hd : d = 't' ∨ d = 'f' ∨ d = 'u') (hc : (lowerChar c).head? = some d)

include hd hc

/-- Outside ASCII no lower case begins with one of the letters t, f and u. -/
theorem ascii_of_lowerChar : c.toNat < 0x80 := by
  have hexpansions : ∀ e ∈ lowerExpansions, (e.2.map Char.ofNat).head? ≠ some d := by
    rcases hd with rfl | rfl | rfl <;> decide
  have hshifts : ∀ s ∈ lowerShifts, s.covers ((d.toNat : Int) - s.delta).toNat = false := by
    rcases hd with rfl | rfl | rfl <;> decide +kernel
  have hascii : 0 < d.toNat ∧ d.toNat < 0x80 ∧ d ≠ Char.ofNat 0 := by
    rcases hd with rfl | rfl | rfl <;> decide
  obtain ⟨hpos, hlt, hne⟩ := hascii
  by_contra hge
  -- the image is an expansion of the table, a shift of it, or the character itself
  rw [lowerChar, if_neg hge, mapBy] at hc
  cases hlook : lowerExpansions.lookup c.toNat with
  | some cs =>
    rw [hlook] at hc
    obtain ⟨before, after, hsplit, -⟩ := List.lookup_eq_some_iff.1 hlook
    exact hexpansions (c.toNat, cs) (by rw [hsplit]; simp) hc
  | none =>
    rw [hlook] at hc
    cases hfind : lowerShifts.find? (·.covers c.toNat) with
    | some s =>
      rw [hfind] at hc
      have hn := toNat_of_ofNat (Option.some.inj hc) hne
      have hcov := List.find?_some hfind
      have hback : c.toNat = ((d.toNat : Int) - s.delta).toNat := by omega
      rw [hback, hshifts s (List.mem_of_find?_eq_some hfind)] at hcov
      exact Bool.false_ne_true hcov
    | none =>
      rw [hfind] at hc
      exact hge (Option.some.inj hc ▸ hlt)

/-- What is t, f or u in small letters is T, F or U in capitals. -/
theorem head_upperChar : ∃ e, upperChar c = [e] ∧ (e = 'T' ∨ e = 'F' ∨ e = 'U') := by
  have hcase : ∀ n < 0x80, (Char.ofNat n).toLower = d →
      (Char.ofNat n).toUpper = 'T' ∨ (Char.ofNat n).toUpper = 'F' ∨ (Char.ofNat n).toUpper = 'U' := by
    rcases hd with rfl | rfl | rfl <;> decide +kernel
  have hascii := ascii_of_lowerChar hd hc
  rw [lowerChar, if_pos hascii] at hc
  have hupper := hcase c.toNat hascii (by rw [Char.ofNat_toNat]; exact Option.some.inj hc)
  rw [Char.ofNat_toNat] at hupper
  exact ⟨c.toUpper, if_pos hascii, hupper⟩

end

theorem lowerChar_ne_nil (c : Char) : lowerChar c ≠ [] := by
  have hexpansions : ∀ e ∈ lowerExpansions, e.2.map Char.ofNat ≠ [] := by decide
  by_cases hascii : c.toNat < 0x80
  · rw [lowerChar, if_pos hascii]
    exact List.cons_ne_nil _ _
  · rw [lowerChar, if_neg hascii, mapBy]
    cases hlook : lowerExpansions.lookup c.toNat with
    | some cs =>
      obtain ⟨before, after, hsplit, -⟩ := List.lookup_eq_some_iff.1 hlook
      exact hexpansions (c.toNat, cs) (by rw [hsplit]; simp)
    | none => cases lowerShifts.find? (·.covers c.toNat) <;> exact List.cons_ne_nil _ _

theorem head_word (s : State) : ∃ d, s.word.toList.head? = some d ∧ (d = 't' ∨ d = 'f' ∨ d = 'u') := by
  cases s with
  | yes => exact ⟨'t', rfl, .inl rfl⟩
  | no => exact ⟨'f', rfl, .inr (.inl rfl)⟩
  | unknown => exact ⟨'u', rfl, .inr (.inr rfl)⟩

/-- Whatever spells a literal begins with T, F or U in capitals. -/
theorem head_upper_of_literal {word : String} {s : State} (h : s.SpelledBy word) :
    (upper word).toList.head? ∈ [some 'T', some 'F', some 'U'] := by
  obtain ⟨d, hhead, hd⟩ := head_word s
  rw [← h, lower, String.toList_ofList, lowerChars] at hhead
  rw [upper, String.toList_ofList, upperChars]
  cases hcs : word.toList with
  | nil => rw [hcs] at hhead; cases hhead
  | cons c cs =>
    rw [hcs, lowerFrom] at hhead
    -- only the capital sigma looks at its neighbours, and becomes a sigma anyway
    by_cases hc : c = 'Σ'
    · have hsigma : ∀ b : Bool, [if b = true then 'ς' else 'σ'].head? ≠ some d := by
        rcases hd with rfl | rfl | rfl <;> decide
      rw [if_pos hc, lowerSigma] at hhead
      exact absurd hhead (hsigma _)
    · rw [if_neg hc, List.head?_append_of_ne_nil _ (lowerChar_ne_nil c)] at hhead
      obtain ⟨e, heq, he⟩ := head_upperChar hd hhead
      rw [List.flatMap_cons, heq]
      rcases he with rfl | rfl | rfl <;> simp

end Text

namespace Expression

/-! ## Names -/

variable {r : Registry}

theorem literal?_eq_some {word : String} {s : State} (h : s.SpelledBy word) :
    literal? word = some s := by
  rw [literal?, show Text.lower word = s.word from h]
  cases s <;> rfl

theorem literal?_eq_none {word : String} (h : State.Unspelled word) : literal? word = none := by
  rw [literal?]
  split
  · exact absurd ‹_› (h .yes)
  · exact absurd ‹_› (h .no)
  · exact absurd ‹_› (h .unknown)
  · rfl

/-- No operator of the language begins like a literal. -/
theorem not_mem_spellings_of_literal {word : String} {s : State} (h : s.SpelledBy word)
    (b : Builtin) : Text.upper word ∉ b.spellings := by
  have hheads : ∀ name ∈ b.spellings, name.toList.head? ∉ [some 'T', some 'F', some 'U'] := by
    cases b <;> decide
  exact fun hmem => hheads _ hmem (Text.head_upper_of_literal h)

theorem not_reserved {name : String} (hname : ∀ b : Builtin, name ∉ b.spellings)
    (hinitial : name.toList.head? ∉ [some 'T', some 'F', some 'U']) : ¬Reserved name := by
  rintro (⟨b, hb⟩ | ⟨s, word, hword, rfl⟩)
  · exact hname b hb
  · exact hinitial (Text.head_upper_of_literal hword)

theorem key_mem_spellings (b : Builtin) : b.key ∈ b.spellings := by cases b <;> decide

theorem keyOfUpper_spelling {b : Builtin} {name : String} (h : name ∈ b.spellings) :
    keyOfUpper name = b.key := by
  have hall : ∀ name ∈ b.spellings, keyOfUpper name = b.key := by cases b <;> decide
  exact hall name h

theorem keyOfUpper_other {name : String} (h : ∀ b : Builtin, name ∉ b.spellings) :
    keyOfUpper name = name := by
  unfold keyOfUpper
  split
  · exact absurd (by decide) (h .not)
  · exact absurd (by decide) (h .and)
  · exact absurd (by decide) (h .or)
  · exact absurd (by decide) (h .xor)
  · exact absurd (by decide) (h .majority)
  · exact absurd (by decide) (h .conditional)
  · rfl

theorem keyOf_spelling {b : Builtin} {word : String} (h : Text.upper word ∈ b.spellings) :
    keyOf word = b.key := keyOfUpper_spelling h

theorem keyOf_unnamed {r : Registry} {word : String} (h : ¬r.NamesOperator (Text.upper word)) :
    keyOf word = Text.upper word ∧ r.operator? (Text.upper word) = none :=
  ⟨keyOfUpper_other fun b hb => h (.inl ⟨b, hb⟩),
    Option.not_isSome_iff_eq_none.1 fun hsome => h (.inr hsome)⟩

theorem keyOf_unreserved {name word : String} (h : ¬Reserved name) (hword : Text.upper word = name) :
    keyOf word = name := by
  rw [keyOf, hword]
  exact keyOfUpper_other fun b hb => h (.inl ⟨b, hb⟩)

namespace Registry

/-- The operators of the language are found as they are, and nothing else is found under
    a reserved name. -/
structure Intact (r : Registry) : Prop where
  builtin : ∀ b : Builtin, r.operator? b.key = some b.spec
  operator : ∀ key, (r.operator? key).isSome → (∃ b : Builtin, key = b.key) ∨ ¬Reserved key
  function : ∀ key, (r.function? key).isSome → ¬Reserved key

theorem operator?_registerOperator (name key : String) (handler : Handler) (precedence arity : Int) :
    (r.registerOperator name handler precedence arity).operator? key =
      if Text.upper name = key then some ⟨Text.upper name, precedence, arity, .custom handler⟩
      else r.operator? key := by
  simp only [operator?, registerOperator, List.find?_cons]
  by_cases h : Text.upper name = key
  · rw [if_pos h, h, beq_self_eq_true]
  · rw [if_neg h, beq_false_of_ne h]

theorem function?_registerFunction (name key : String) (handler : Handler) :
    (r.registerFunction name handler).function? key =
      if Text.upper name = key then some handler else r.function? key := by
  simp only [function?, registerFunction, List.lookup_cons]
  by_cases h : Text.upper name = key
  · rw [if_pos h, h, beq_self_eq_true]
  · rw [if_neg h, beq_false_of_ne (Ne.symm h)]

/-- Only operators of the language are there from the start. -/
theorem exists_builtin_of_standard {key : String} (h : (standard.operator? key).isSome) :
    ∃ b : Builtin, key = b.key := by
  obtain ⟨spec, hspec⟩ := Option.isSome_iff_exists.1 h
  rw [operator?] at hspec
  have hkey := List.find?_some hspec
  obtain ⟨b, -, rfl⟩ := List.mem_map.1 (List.mem_of_find?_eq_some hspec)
  exact ⟨b, (eq_of_beq hkey).symm⟩

theorem standard_intact : Intact standard where
  builtin b := by cases b <;> rfl
  operator _ h := .inl (exists_builtin_of_standard h)
  function key h := by cases h

theorem Grown.intact (h : Grown r) : Intact r := by
  induction h with
  | standard => exact standard_intact
  | @operator r name handler precedence arity _ hname ih =>
    refine ⟨fun b => ?_, fun key hkey => ?_, ih.function⟩
    · have hne : Text.upper name ≠ b.key := fun heq => hname (.inl ⟨b, heq ▸ key_mem_spellings b⟩)
      rw [operator?_registerOperator, if_neg hne, ih.builtin]
    · rw [operator?_registerOperator] at hkey
      by_cases heq : Text.upper name = key
      · exact .inr (heq ▸ hname)
      · rw [if_neg heq] at hkey
        exact ih.operator key hkey
  | @function r name handler _ hname ih =>
    refine ⟨ih.builtin, ih.operator, fun key hkey => ?_⟩
    rw [function?_registerFunction] at hkey
    by_cases heq : Text.upper name = key
    · exact heq ▸ hname
    · rw [if_neg heq] at hkey
      exact ih.function key hkey

variable (hr : Intact r)

include hr

theorem Intact.function?_key (b : Builtin) : r.function? b.key = none := by
  cases h : r.function? b.key with
  | none => rfl
  | some handler => exact absurd (.inl ⟨b, key_mem_spellings b⟩) (hr.function b.key (by rw [h]; rfl))

/-- Nothing that spells a literal names an operator. -/
theorem Intact.operator?_literal {word : String} {s : State} (h : s.SpelledBy word) :
    r.operator? (keyOf word) = none := by
  have hkey : keyOf word = Text.upper word := keyOfUpper_other (not_mem_spellings_of_literal h)
  rw [hkey]
  refine Option.not_isSome_iff_eq_none.1 fun hsome => ?_
  rcases hr.operator _ hsome with ⟨b, hb⟩ | hfree
  · exact not_mem_spellings_of_literal h b (hb ▸ key_mem_spellings b)
  · exact hfree (.inr ⟨s, word, h, rfl⟩)

/-- What was registered as an operator has no reserved name. -/
theorem Intact.unreserved_of_joins {key : String} {precedence : Int}
    (h : Joins r (.named key) precedence) : ¬Reserved key := by
  obtain ⟨-, handler, hspec⟩ := h
  rcases hr.operator key (by rw [hspec]; rfl) with ⟨b, rfl⟩ | hfree
  · rw [hr.builtin b] at hspec
    exact absurd (congrArg OperatorSpec.action (Option.some.inj hspec)) (by simp [Builtin.spec])
  · exact hfree

end Registry

end Expression

end Verdict
