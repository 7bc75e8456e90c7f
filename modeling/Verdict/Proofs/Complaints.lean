/-
  Verdict.Proofs.Complaints — the check of names finds each fault once, and nothing else.

  Complaints are about spots of a document: an operand of a gate, the name of a gate, the
  output (`Document.Spot`). A spot earns a complaint by what the document says, whatever the
  check does: an operand that names neither an input nor a gate before, a gate with a name
  that is taken, an output that names nothing (`Document.Earns`). The check passes over the
  spots in their order, and what it says about a stretch of them is put together from what it
  says about its parts (`Covers.append`). Main statement: it complains once about each spot
  that earns it, in the order of the document, and about nothing if and only if the names fit
  together (`Document.complaints_exact`).
-/

import Verdict.Document.Integrity
import Mathlib.Data.List.Forall2
import Mathlib.Data.List.Nodup

namespace Verdict

open Blueprint (Complaint)

/-! ## What operands name -/

/-- The name that an operand stands for, as it is or after a mark of inversion. -/
inductive Scalar.Names : Scalar → String → Prop
  | plain {s : String} : s.toList.head? ∉ [some '!', some '@'] → Names (.text s) s
  | inverted {s : String} : Names (.text ("!" ++ s)) s

theorem Scalar.reference?_eq_some {x : Scalar} {name : String} : x.reference? = some name ↔ x.Names name := by
  constructor
  · intro h
    cases x with
    | null | bool | int => cases h
    | text s =>
      simp only [reference?] at h
      split at h
      · cases h
      · next rest hs =>
        cases h
        have hsplit : s = "!" ++ String.ofList rest := by rw [← String.toList_inj, hs]; simp
        rw [hsplit]
        exact .inverted
      · next hat hmark =>
        cases h
        refine .plain fun hmem => ?_
        simp only [List.mem_cons, List.not_mem_nil, or_false, List.head?_eq_some_iff] at hmem
        rcases hmem with ⟨rest, hs⟩ | ⟨rest, hs⟩
        · exact hmark rest hs
        · exact hat rest hs
  · rintro (hplain | _)
    · simp only [reference?]
      split
      · next hs => exact absurd (by rw [hs]; simp) hplain
      · next hs => exact absurd (by rw [hs]; simp) hplain
      · rfl
    · simp [reference?]

namespace Document

/-! ## Spots -/

/-- What can be complained about, gates and their operands by their places. -/
inductive Spot
  | operand (gate index : Nat)
  | name (gate : Nat)
  | output
  deriving DecidableEq, Repr

/-- The order of a document: the operands of a gate, its name, then the gates after it, and
    last the output. -/
def Spot.Before : Spot → Spot → Prop
  | operand g i, operand h j => g < h ∨ g = h ∧ i < j
  | operand g _, name h => g ≤ h
  | name g, operand h _ | name g, name h => g < h
  | operand _ _, output | name _, output => True
  | output, _ => False

/-- Whether the spot is of a gate from a place on, or the output. -/
def Spot.IsFrom (place : Nat) : Spot → Prop
  | operand g _ | name g => place ≤ g
  | output => True

def Spot.IsOf (place : Nat) : Spot → Prop
  | operand g _ | name g => g = place
  | output => False

theorem Spot.isFrom_iff {place : Nat} {s : Spot} : s.IsFrom place ↔ s.IsOf place ∨ s.IsFrom (place + 1) := by
  cases s with
  | operand g | name g =>
    simp only [IsFrom, IsOf]
    omega
  | output => exact iff_of_true trivial (.inr trivial)

theorem Spot.IsOf.before {place : Nat} {s t : Spot} (hs : s.IsOf place) (ht : t.IsFrom (place + 1)) : s.Before t := by
  cases s with
  | operand g i =>
    cases hs
    cases t with
    | operand => exact .inl ht
    | name => exact Nat.le_of_succ_le ht
    | output => trivial
  | name g =>
    cases hs
    cases t with
    | operand | name => exact ht
    | output => trivial
  | output => exact hs.elim

section

variable (d : Document)

/-- Whether a name is that of an input or of one of the first `count` gates. -/
def Known (count : Nat) (name : String) : Prop :=
  name ∈ d.inputs.map Prod.fst ∨ name ∈ (d.gates.items.take count).map Prod.fst

/-- Whether there is something to complain about at a spot. -/
inductive Earns : Spot → Complaint → Prop
  | operand {i j : Nat} {name referred : String} {g : Gate} {x : Scalar} :
      d.gates.items[i]? = some (name, g) → g.operands[j]? = some x → x.Names referred → ¬d.Known i referred →
      Earns (.operand i j) (.undefinedOperand name referred)
  | name {i : Nat} {name : String} {g : Gate} :
      d.gates.items[i]? = some (name, g) → d.Known i name → Earns (.name i) (.duplicateName name)
  | output {name : String} :
      d.output = some name → ¬d.Known d.gates.items.length name → Earns .output (.unknownOutput name)

/-- Whether all names fit together. -/
structure IsConsistent : Prop where
  operands : ∀ i name g, d.gates.items[i]? = some (name, g) → ∀ x ∈ g.operands, ∀ referred, x.Names referred →
    d.Known i referred
  distinct : (d.gates.items.map Prod.fst).Nodup
  fresh : ∀ name ∈ d.gates.items.map Prod.fst, name ∉ d.inputs.map Prod.fst
  output : ∀ name, d.output = some name → name ∈ d.inputs.map Prod.fst ∨ name ∈ d.gates.items.map Prod.fst

/-- Whether the complaints are those that a stretch of spots earns: one about each of these
    spots, in their order. -/
structure Covers (stretch : Spot → Prop) (spots : List Spot) (complaints : List Complaint) : Prop where
  earned : List.Forall₂ d.Earns spots complaints
  ordered : spots.Pairwise Spot.Before
  within : ∀ s ∈ spots, stretch s
  complete : ∀ s c, stretch s → d.Earns s c → s ∈ spots

end

variable {d : Document}

/-! ## Stretches of spots -/

namespace Covers

variable {stretch first later : Spot → Prop} {spots spots' : List Spot} {complaints complaints' : List Complaint}

/-- A single spot. -/
theorem one {s : Spot} {complaint? : Option Complaint} (h : ∀ c, d.Earns s c ↔ complaint? = some c) :
    ∃ spots, d.Covers (· = s) spots complaint?.toList := by
  cases complaint? with
  | none =>
    refine ⟨[], .nil, .nil, List.forall_mem_nil _, ?_⟩
    rintro _ c rfl hearns
    cases (h c).1 hearns
  | some c =>
    refine ⟨[s], .cons ((h c).2 rfl) .nil, List.pairwise_singleton _ _, by simp, ?_⟩
    intro t c ht _
    exact List.mem_singleton.2 ht

/-- One stretch after another. -/
theorem append (hfirst : d.Covers first spots complaints) (hlater : d.Covers later spots' complaints')
    (hbefore : ∀ s t, first s → later t → s.Before t) :
    d.Covers (fun s => first s ∨ later s) (spots ++ spots') (complaints ++ complaints') where
  earned := List.rel_append hfirst.earned hlater.earned
  ordered := List.pairwise_append.2 ⟨hfirst.ordered, hlater.ordered,
    fun s hs t ht => hbefore s t (hfirst.within s hs) (hlater.within t ht)⟩
  within := List.forall_mem_append.2
    ⟨fun s hs => .inl (hfirst.within s hs), fun s hs => .inr (hlater.within s hs)⟩
  complete := by
    rintro s c (hs | hs) hearns
    · exact List.mem_append_left _ (hfirst.complete s c hs hearns)
    · exact List.mem_append_right _ (hlater.complete s c hs hearns)

/-- A stretch to which spots are added that earn nothing. -/
theorem widen (h : d.Covers first spots complaints) (hwithin : ∀ s, first s → stretch s)
    (hadded : ∀ s c, stretch s → d.Earns s c → first s) : d.Covers stretch spots complaints where
  earned := h.earned
  ordered := h.ordered
  within s hs := hwithin s (h.within s hs)
  complete s c hs hearns := h.complete s c (hadded s c hs hearns) hearns

/-- Each of the spots earns something. -/
theorem exists_earns (h : d.Covers stretch spots complaints) {s : Spot} (hs : s ∈ spots) : ∃ c, d.Earns s c := by
  obtain ⟨i, hi, rfl⟩ := List.mem_iff_getElem.1 hs
  exact ⟨_, (List.forall₂_iff_get.1 h.earned).2 i hi (h.earned.length_eq ▸ hi)⟩

end Covers

/-! ## The check -/

section

variable {known : List String} {i : Nat} {name : String} {g : Gate}

theorem operand_earns (hgate : d.gates.items[i]? = some (name, g)) (hknown : ∀ n, n ∈ known ↔ d.Known i n) {j : Nat}
    {x : Scalar} (hx : g.operands[j]? = some x) (c : Complaint) :
    d.Earns (.operand i j) c ↔ operandComplaint? known name x = some c := by
  constructor
  · rintro (⟨hgate', hx', hnames, hunknown⟩ | _ | _)
    cases hgate.symm.trans hgate'
    cases hx.symm.trans hx'
    have hnot : ¬known.contains _ = true := fun hmem => hunknown ((hknown _).1 (List.contains_iff_mem.1 hmem))
    rw [operandComplaint?, Scalar.reference?_eq_some.2 hnames]
    exact if_neg hnot
  · intro h
    unfold operandComplaint? at h
    split at h
    · cases h
    · next referred hreferred =>
      split at h
      · cases h
      · next hnot =>
        cases h
        refine .operand hgate hx (Scalar.reference?_eq_some.1 hreferred) fun hmem => hnot ?_
        exact List.contains_iff_mem.2 ((hknown _).2 hmem)

/-- By induction on the operands that are left, each a spot of its own. -/
theorem operands_covered (hgate : d.gates.items[i]? = some (name, g)) (hknown : ∀ n, n ∈ known ↔ d.Known i n)
    {done rest : List Scalar} (hsplit : g.operands = done ++ rest) :
    ∃ spots, d.Covers (fun s => ∃ j, done.length ≤ j ∧ s = .operand i j) spots
      (rest.filterMap (operandComplaint? known name)) := by
  induction rest generalizing done with
  | nil =>
    refine ⟨[], .nil, .nil, List.forall_mem_nil _, ?_⟩
    rintro _ c ⟨j, hj, rfl⟩ (⟨hgate', hx, -, -⟩ | _ | _)
    cases hgate.symm.trans hgate'
    rw [hsplit, List.append_nil, List.getElem?_eq_none hj] at hx
    cases hx
  | cons x rest ih =>
    have hx : g.operands[done.length]? = some x := by rw [hsplit]; simp
    obtain ⟨here, hhere⟩ := Covers.one (operand_earns hgate hknown hx)
    have hnext : g.operands = (done ++ [x]) ++ rest := by rw [hsplit, List.append_assoc]; rfl
    obtain ⟨later, hlater⟩ := ih hnext
    rw [List.length_append, List.length_singleton] at hlater
    have hall := hhere.append hlater (by
      rintro _ _ rfl ⟨j, hj, rfl⟩
      exact .inr ⟨rfl, hj⟩)
    have hcomplaints : (x :: rest).filterMap (operandComplaint? known name) =
        (operandComplaint? known name x).toList ++ rest.filterMap (operandComplaint? known name) := by
      rw [List.filterMap_cons]
      cases operandComplaint? known name x <;> rfl
    rw [hcomplaints]
    refine ⟨here ++ later, hall.widen ?_ ?_⟩
    · rintro s (rfl | ⟨j, hj, rfl⟩)
      · exact ⟨_, Nat.le_refl _, rfl⟩
      · exact ⟨j, Nat.le_of_succ_le hj, rfl⟩
    · rintro _ c ⟨j, hj, rfl⟩ -
      rcases Nat.eq_or_lt_of_le hj with rfl | hj
      · exact .inl rfl
      · exact .inr ⟨j, hj, rfl⟩

theorem name_earns (hgate : d.gates.items[i]? = some (name, g)) (hknown : ∀ n, n ∈ known ↔ d.Known i n)
    (c : Complaint) :
    d.Earns (.name i) c ↔ (if known.contains name then some (Complaint.duplicateName name) else none) = some c := by
  constructor
  · rintro (_ | ⟨hgate', htaken⟩ | _)
    cases hgate.symm.trans hgate'
    exact if_pos (List.contains_iff_mem.2 ((hknown _).2 htaken))
  · intro h
    split at h
    · next htaken =>
      cases h
      exact .name hgate ((hknown _).1 (List.contains_iff_mem.1 htaken))
    · cases h

end

theorem output_earns {known : List String} (hknown : ∀ n, n ∈ known ↔ d.Known d.gates.items.length n) (c : Complaint) :
    d.Earns .output c ↔ (outputComplaints known d.output).head? = some c := by
  constructor
  · rintro (_ | _ | ⟨houtput, hunknown⟩)
    have hnot : ¬known.contains _ = true := fun hmem => hunknown ((hknown _).1 (List.contains_iff_mem.1 hmem))
    rw [houtput, outputComplaints, if_neg hnot]
    rfl
  · intro h
    cases houtput : d.output with
    | none =>
      rw [houtput] at h
      cases h
    | some name =>
      rw [houtput, outputComplaints] at h
      split at h
      · cases h
      · next hnot =>
        cases h
        exact .output houtput fun hmem => hnot (List.contains_iff_mem.2 ((hknown _).2 hmem))

theorem known_succ {i : Nat} {name : String} {g : Gate} (hgate : d.gates.items[i]? = some (name, g)) (n : String) :
    d.Known (i + 1) n ↔ n = name ∨ d.Known i n := by
  rw [Known, Known, List.take_add_one, hgate, List.map_append, List.mem_append]
  simp only [Option.toList_some, List.map_cons, List.map_nil, List.mem_singleton]
  tauto

/-- A gate: its operands, then its name. -/
theorem gate_covered {known : List String} {i : Nat} {name : String} {g : Gate}
    (hgate : d.gates.items[i]? = some (name, g)) (hknown : ∀ n, n ∈ known ↔ d.Known i n) :
    ∃ spots, d.Covers (Spot.IsOf i) spots (gateComplaints known name g) := by
  obtain ⟨operands, hoperands⟩ := operands_covered hgate hknown (List.nil_append g.operands).symm
  obtain ⟨own, hown⟩ := Covers.one (name_earns hgate hknown)
  have hall := hoperands.append hown (by
    rintro _ _ ⟨j, -, rfl⟩ rfl
    exact Nat.le_refl i)
  have hcomplaints : gateComplaints known name g = g.operands.filterMap (operandComplaint? known name) ++
      (if known.contains name then some (Complaint.duplicateName name) else none).toList := by
    unfold gateComplaints
    split <;> rfl
  rw [hcomplaints]
  refine ⟨operands ++ own, hall.widen ?_ ?_⟩
  · rintro s (⟨j, -, rfl⟩ | rfl) <;> rfl
  · rintro (⟨h, j⟩ | h | _) c hof -
    · cases hof
      exact .inl ⟨j, Nat.zero_le j, rfl⟩
    · cases hof
      exact .inr rfl
    · exact hof.elim

/-- After all gates there is the output only. -/
theorem output_covered {known : List String} (hknown : ∀ n, n ∈ known ↔ d.Known d.gates.items.length n) :
    ∃ spots, d.Covers (Spot.IsFrom d.gates.items.length) spots (outputComplaints known d.output) := by
  obtain ⟨spots, hspots⟩ := Covers.one (output_earns hknown)
  have hlist : (outputComplaints known d.output).head?.toList = outputComplaints known d.output := by
    unfold outputComplaints
    split
    · rfl
    · split <;> rfl
  rw [hlist] at hspots
  refine ⟨spots, hspots.widen (fun s hs => hs ▸ trivial) ?_⟩
  rintro _ c hfrom (⟨hgate, -, -, -⟩ | ⟨hgate, -⟩ | _)
  · rw [List.getElem?_eq_none hfrom] at hgate
    cases hgate
  · rw [List.getElem?_eq_none hfrom] at hgate
    cases hgate
  · rfl

/-- By induction on the gates that are left: what is known before them are the inputs and the
    gates passed over, with or without complaints. -/
theorem gates_covered {known : List String} {done rest : List (String × Gate)} (hsplit : d.gates.items = done ++ rest)
    (hknown : ∀ n, n ∈ known ↔ d.Known done.length n) :
    ∃ spots, d.Covers (Spot.IsFrom done.length) spots (complaintsFrom known d.output rest) := by
  induction rest generalizing done known with
  | nil =>
    rw [List.append_nil] at hsplit
    rw [← hsplit] at hknown ⊢
    exact output_covered hknown
  | cons item rest ih =>
    obtain ⟨name, g⟩ := item
    have hgate : d.gates.items[done.length]? = some (name, g) := by rw [hsplit]; simp
    have hnext : d.gates.items = (done ++ [(name, g)]) ++ rest := by rw [hsplit, List.append_assoc]; rfl
    have hknown' (n : String) : n ∈ name :: known ↔ d.Known (done ++ [(name, g)]).length n := by
      rw [List.length_append, List.length_singleton, known_succ hgate, List.mem_cons, hknown]
    obtain ⟨own, hown⟩ := gate_covered hgate hknown
    obtain ⟨later, hlater⟩ := ih hnext hknown'
    rw [List.length_append, List.length_singleton] at hlater
    have hall := hown.append hlater fun _ _ hs ht => hs.before ht
    exact ⟨own ++ later, hall.widen (fun _ => Spot.isFrom_iff.2) fun _ _ hs _ => Spot.isFrom_iff.1 hs⟩

/-! ## Documents without complaints -/

theorem nodup_iff_not_mem_take {names : List String} :
    names.Nodup ↔ ∀ i name, names[i]? = some name → name ∉ names.take i := by
  rw [List.nodup_iff_getElem?_ne_getElem?]
  constructor
  · intro hdistinct i name hname hmem
    obtain ⟨k, hk, rfl⟩ := List.mem_take_iff_getElem.1 hmem
    refine hdistinct k i (by omega) (List.getElem?_eq_some_iff.1 hname).1 ?_
    rw [hname, List.getElem?_eq_getElem]
  · intro hbefore k i hki hi hsame
    refine hbefore i names[i] (List.getElem?_eq_getElem hi) (List.mem_take_iff_getElem.2 ⟨k, by omega, ?_⟩)
    rw [List.getElem?_eq_getElem hi, List.getElem?_eq_getElem (Nat.lt_trans hki hi)] at hsame
    exact Option.some.inj hsame

theorem isConsistent_of_not_earns (hnone : ∀ s c, ¬d.Earns s c) : d.IsConsistent := by
  have hfree : ∀ i name g, d.gates.items[i]? = some (name, g) → ¬d.Known i name :=
    fun i name g hgate htaken => hnone _ _ (.name hgate htaken)
  refine ⟨?_, ?_, ?_, ?_⟩
  · intro i name g hgate x hx referred hnames
    obtain ⟨j, hj⟩ := List.mem_iff_getElem?.1 hx
    by_contra hunknown
    exact hnone _ _ (.operand hgate hj hnames hunknown)
  · refine nodup_iff_not_mem_take.2 fun i name hname hmem => ?_
    rw [List.getElem?_map, Option.map_eq_some_iff] at hname
    obtain ⟨⟨_, g⟩, hgate, rfl⟩ := hname
    rw [← List.map_take] at hmem
    exact hfree i _ g hgate (.inr hmem)
  · intro name hmem hinput
    obtain ⟨⟨_, g⟩, hitem, rfl⟩ := List.mem_map.1 hmem
    obtain ⟨i, hgate⟩ := List.mem_iff_getElem?.1 hitem
    exact hfree i _ g hgate (.inl hinput)
  · intro name houtput
    by_contra hunknown
    refine hnone _ _ (.output houtput fun hknown => hunknown ?_)
    rwa [Known, List.take_length] at hknown

theorem IsConsistent.not_earns (h : d.IsConsistent) (s : Spot) (c : Complaint) : ¬d.Earns s c := by
  intro hearns
  cases hearns with
  | operand hgate hx hnames hunknown =>
    exact hunknown (h.operands _ _ _ hgate _ (List.mem_of_getElem? hx) _ hnames)
  | name hgate htaken =>
    rcases htaken with hinput | hgates
    · exact h.fresh _ (List.mem_map_of_mem (List.mem_of_getElem? hgate)) hinput
    · rw [List.map_take] at hgates
      refine nodup_iff_not_mem_take.1 h.distinct _ _ ?_ hgates
      rw [List.getElem?_map, hgate]
      rfl
  | output hname hunknown =>
    refine hunknown ?_
    rw [Known, List.take_length]
    exact h.output _ hname

theorem covered (d : Document) : ∃ spots, d.Covers (Spot.IsFrom 0) spots d.complaints :=
  gates_covered (List.nil_append _).symm fun n => by simp [Known]

/-- The check is exact and complete. -/
theorem complaints_exact (d : Document) :
    (d.complaints = [] ↔ d.IsConsistent) ∧
      ∃ spots, List.Forall₂ d.Earns spots d.complaints ∧ spots.Pairwise Spot.Before ∧
        ∀ s, s ∈ spots ↔ ∃ c, d.Earns s c := by
  obtain ⟨spots, hspots⟩ := d.covered
  have hcomplete : ∀ s c, d.Earns s c → s ∈ spots := by
    intro s c hearns
    refine hspots.complete s c ?_ hearns
    cases s with
    | operand g | name g => exact Nat.zero_le g
    | output => trivial
  have hearned : ∀ s ∈ spots, ∃ c, d.Earns s c := fun s hs => hspots.exists_earns hs
  refine ⟨?_, spots, hspots.earned, hspots.ordered, fun s => ⟨hearned s, fun ⟨c, hc⟩ => hcomplete s c hc⟩⟩
  constructor
  · intro hnil
    refine isConsistent_of_not_earns fun s c hearns => ?_
    have hempty : spots = [] := List.forall₂_nil_right_iff.1 (hnil ▸ hspots.earned)
    rw [hempty] at hcomplete
    exact List.not_mem_nil (hcomplete s c hearns)
  · intro hconsistent
    have hempty : spots = [] := by
      refine List.eq_nil_iff_forall_not_mem.2 fun s hs => ?_
      obtain ⟨c, hearns⟩ := hearned s hs
      exact hconsistent.not_earns s c hearns
    exact List.forall₂_nil_left_iff.1 (hempty ▸ hspots.earned)

end Document

end Verdict
