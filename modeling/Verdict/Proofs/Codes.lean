/-
  Verdict.Proofs.Codes — codes of states lose nothing, and say what numerals say.

  A code is read character by character, up to the first that is no symbol, and each
  symbol gives the state of its digit (`decodeSymbols_ends`). So what was encoded is
  decoded again, and a code that is decoded and encoded has its symbols in their plain
  form (`codes_lossless`). To read a numeral is to decode it and to put the digits of the
  states behind each other (`readFrom_eq_decode`): both readings of a text fail at one
  character, or the number is what the digits of the states are worth (`decoders_agree`).
-/

import Verdict.Proofs.Leaves
import Verdict.Proofs.NumeralForms
import Verdict.Proofs.Replay

namespace Verdict

/-! ## Decoding -/

theorem Trit.isSymbol_blank {c : Char} (hc : Text.isBlank c = true) : isSymbol c = false := by
  rw [← isSome_ofChar?, ofChar?_blank hc]
  rfl

/-- By induction on the characters: they are decoded in order, up to the first that is no
    symbol, and what they are decoded to has their plain forms for symbols. -/
theorem decodeSymbols_ends (cs : List Char) :
    Ends (fun e => ∃ c, Balanced.firstFault? cs = some c ∧ Balanced.IsAbout e c)
      (fun states => Balanced.firstFault? cs = none ∧ cs.map Trit.plain = states.map fun s => s.toTrit.symbol)
      (decodeSymbols (cs.map fun c => c.toString)) := by
  induction cs with
  | nil => exact ⟨rfl, rfl⟩
  | cons c cs ih =>
    rw [List.map_cons, List.map_cons, decodeSymbols, Trit.ofSymbol_char, Balanced.firstFault?_cons,
      ← Trit.isSome_ofChar?]
    cases hdigit : Trit.ofChar? c with
    | none => exact ⟨c, rfl, Balanced.isAbout_refused c⟩
    | some t =>
      have hplain : Trit.plain c = t.symbol := by rw [Trit.plain, hdigit]; rfl
      refine ih.bind fun states hrest => ?_
      obtain ⟨hnone, hcs⟩ := hrest
      refine ⟨hnone, ?_⟩
      rw [List.map_cons, hcs, hplain, State.toTrit_ofTrit]

theorem encode_vector (states : List State) : Algebra.encode (.vector states) = .ok (encodeStates states) := by
  rw [Algebra.encode, Value.toVector_vector]
  rfl

theorem toList_encodeStates (states : List State) :
    (encodeStates states).toList = states.map fun s => s.toTrit.symbol := by
  rw [encodeStates, String.toList_ofList]

/-- Values nested in any way, if each leaf has a state, are encoded with one symbol for
    each leaf and decoded to the same vector. A text is refused if the capital of a
    character in it is no symbol, as that of no blank is, and what is decoded is encoded as
    the text with every symbol in its plain form. -/
theorem codes_lossless :
    (∀ (v : Value) (leaves : List Value), v ≠ .null → Value.Gathers [v] leaves → (∀ u ∈ leaves, u.hasState = true) →
      ∃ (states : List State) (code : String),
        List.Forall₂ Value.StandsFor leaves states ∧ v.toVector = .ok states ∧ Algebra.encode v = .ok code ∧
          code.toList = (states.map fun s => s.toTrit.symbol) ∧ decodeStates code = .ok states) ∧
    (∀ s : String,
      Ends (fun e => e.family = .invalidSymbol ∧ ∃ c ∈ s.toList, Trit.isSymbol c = false)
        (fun states => (∀ c ∈ s.toList, Trit.isSymbol c = true) ∧
          ∃ code : String, Algebra.encode (.vector states) = .ok code ∧
            code.toList = s.toList.map Trit.plain ∧ code.length = s.length)
        (decodeStates s)) ∧
    ∀ c : Char, Text.isBlank c = true → Trit.isSymbol c = false := by
  refine ⟨?_, ?_, fun c => Trit.isSymbol_blank⟩
  · intro v leaves hv hgathers hcoercible
    obtain ⟨states, hstates, hleaves⟩ := Value.exists_states hcoercible
    have hvector : v.toVector = .ok states := by rw [Value.toVector_gathers hv hgathers, hstates]
    refine ⟨states, encodeStates states, hleaves, hvector, ?_, toList_encodeStates states,
      Blueprint.decodeStates_encodeStates states⟩
    rw [Algebra.encode, hvector]
    rfl
  · intro s
    refine ((decodeSymbols_ends s.toList).weaken ?_).imp ?_
    · rintro e ⟨c, hc, habout⟩
      exact ⟨habout.family, c, List.mem_of_find?_eq_some hc, by simpa using List.find?_some hc⟩
    · rintro states ⟨hnone, hplain⟩
      have hcode : (encodeStates states).toList = s.toList.map Trit.plain := by rw [toList_encodeStates, hplain]
      refine ⟨by simpa [Balanced.firstFault?] using hnone, encodeStates states, encode_vector states, hcode, ?_⟩
      rw [← String.length_toList, hcode, List.length_map, String.length_toList]

theorem codes_lossless_nested :
    let v : Value := .map [(.int 1, .list [.null, .str " ON "]), (.str "k", .tuple []), (.null, .vector [.no])]
    let leaves : List Value := [.null, .str " ON ", .state .no]
    (v ≠ .null ∧ Value.Gathers [v] leaves ∧ ∀ u ∈ leaves, u.hasState = true) ∧
      (∃ (states : List State) (code : String),
        List.Forall₂ Value.StandsFor leaves states ∧ v.toVector = .ok states ∧ Algebra.encode v = .ok code ∧
          code.toList = (states.map fun s => s.toTrit.symbol) ∧ decodeStates code = .ok states) ∧
      Algebra.encode v = .ok "0+-" := by
  intro v leaves
  have hv : v ≠ .null := fun h => nomatch h
  have hgathers : Value.Gathers [v] leaves := Value.gathers_leavesOfAll [v]
  have hcoercible : ∀ u ∈ leaves, u.hasState = true := by
    simp only [leaves, List.forall_mem_cons]
    exact ⟨rfl, by decide, rfl, List.forall_mem_nil _⟩
  exact ⟨⟨hv, hgathers, hcoercible⟩, codes_lossless.1 v leaves hv hgathers hcoercible, by rfl⟩

/-! ## Numerals and codes -/

namespace Balanced

theorem readFrom_eq_decode (total : Int) (cs : List Char) :
    readFrom total cs = (do
      let states ← decodeSymbols (cs.map fun c => c.toString)
      readFrom total (states.map fun s => s.toTrit.symbol)) := by
  induction cs generalizing total with
  | nil => rfl
  | cons c cs ih =>
    rw [readFrom, List.map_cons, decodeSymbols]
    cases Trit.ofSymbol c.toString with
    | error e => rfl
    | ok t =>
      simp only [ok_bind, bind_assoc, pure_bind, List.map_cons, readFrom, State.toTrit_ofTrit, ofSymbol_symbol, ih]

theorem ofNumeral_eq_decode (s : String) :
    ofNumeral s = (do
      let states ← decodeStates (Text.strip s)
      return ofTrits (states.map State.toTrit).reverse) := by
  have hread : ∀ states : List State,
      readFrom 0 (states.map fun s => s.toTrit.symbol) = .ok (ofTrits (states.map State.toTrit).reverse) := by
    intro states
    have hsymbols := readFrom_symbols 0 (states.map State.toTrit).reverse
    rwa [List.reverse_reverse, List.map_map, Int.zero_mul, Int.zero_add] at hsymbols
  rw [ofNumeral, readFrom_eq_decode, decodeStates, Text.strip, String.toList_ofList]
  simp only [hread]
  rfl

/-- Two readings of a text that go together: both refuse its first character that is no
    symbol, with one error, or they give related results. -/
inductive Together {α β : Type} (R : α → β → Prop) (cs : List Char) : Except Error α → Except Error β → Prop
  | refused {e : Error} {c : Char} : firstFault? cs = some c → IsAbout e c → Together R cs (.error e) (.error e)
  | read {a : α} {b : β} : firstFault? cs = none → R a b → Together R cs (.ok a) (.ok b)

/-- A text without the blanks around it is a numeral and a code at once: it is refused as
    both for the same character, or the number is the sum of the digits of the states, each
    times the power of three of its place from the end. -/
theorem decoders_agree (s : String) :
    Together (fun n states => n = ofTrits (states.map State.toTrit).reverse ∧
        n = ((states.map State.toTrit).reverse.mapIdx fun place t => t.toInt * 3 ^ place).sum)
      (Text.strip s).toList (ofNumeral s) (decodeStates (Text.strip s)) := by
  rw [ofNumeral_eq_decode, decodeStates]
  generalize (Text.strip s).toList = cs
  have hends := decodeSymbols_ends cs
  cases hstates : decodeSymbols (cs.map fun c => c.toString) with
  | error e =>
    rw [hstates] at hends
    obtain ⟨c, hc, he⟩ := hends
    exact .refused hc he
  | ok states =>
    rw [hstates] at hends
    exact .read hends.1 ⟨rfl, ofTrits_eq_sum _⟩

end Balanced
end Verdict
