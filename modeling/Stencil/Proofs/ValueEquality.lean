import Mathlib
import Stencil.Proofs.ValueMatching

/-! Equality of values. Values are equal to collections if they match and their contents are equal to collections, down to the
innermost. Inside collections the truth values are numbers too, and that is all that the equality that conditions see does
otherwise. Without undefined numbers both are equivalences, and equal values count alike as true or false. -/

namespace Stencil
namespace Value
open Number (Amount)

abbrev Alike (left right : Value) : Prop := left.alike right = true

abbrev AlikeEntry (entry entry' : Value × Value) : Prop := Alike entry.1 entry'.1 ∧ Alike entry.2 entry'.2

theorem alikeEach_iff {items items' : List Value} : alikeEach items items' = true ↔ List.Forall₂ Alike items items' := by
  induction items generalizing items' with
  | nil => cases items' <;> simp [alikeEach]
  | cons item items ih => cases items' <;> simp [alikeEach, ih]

theorem alikeEntries_iff {entries entries' : List (Value × Value)} : alikeEntries entries entries' = true ↔
    ∀ entry ∈ entries, ∃ other, entries'.find? (fun candidate => alike entry.1 candidate.1) = some other ∧
      Alike entry.2 other.2 := by
  induction entries with
  | nil => simp [alikeEntries]
  | cons entry entries ih =>
    obtain ⟨key, value⟩ := entry
    rw [alikeEntries, Bool.and_eq_true, ih, List.forall_mem_cons]
    cases entries'.find? (fun candidate => alike key candidate.1) <;> simp

section
variable {among : Value → Prop}

theorem find_of_mem (equivalent : EquivalentAmong among Alike) {key : Value} (inside : among key)
    {entries : List (Value × Value)} (insides : ∀ entry ∈ entries, among entry.1) (distinct : Distinct entries)
    {entry : Value × Value} (member : entry ∈ entries) (fits : Alike key entry.1) :
    entries.find? (fun candidate => alike key candidate.1) = some entry := by
  induction entries with
  | nil => cases member
  | cons first rest ih =>
    obtain ⟨inside', insides⟩ := List.forall_mem_cons.mp insides
    obtain ⟨apart, distinct⟩ := List.pairwise_cons.mp distinct
    rcases List.mem_cons.mp member with rfl | later
    · simp only [List.find?_cons, fits]
    · have other : ¬ Alike key first.1 := by
        intro fits'
        have twice := equivalent.trans inside' inside (insides entry later) (equivalent.symm inside inside' fits') fits
        exact Bool.false_ne_true ((apart entry later).symm.trans twice)
      simp only [List.find?_cons, Bool.eq_false_iff.mpr other]
      exact ih insides distinct later

/-- Every entry on the left takes away one on the right, and no other entry on the left would have found that. -/
theorem reordered_of_alikeEntries (equivalent : EquivalentAmong among Alike) {entries entries' : List (Value × Value)}
    (insides : ∀ entry ∈ entries, among entry.1) (insides' : ∀ entry ∈ entries', among entry.1) (distinct : Distinct entries)
    (size : entries.length = entries'.length) (found : alikeEntries entries entries' = true) :
    Reordered AlikeEntry entries entries' := by
  rw [alikeEntries_iff] at found
  induction entries generalizing entries' with
  | nil => exact ⟨[], .nil, by rw [List.length_eq_zero_iff.mp size.symm]⟩
  | cons entry entries ih =>
    obtain ⟨inside, insides⟩ := List.forall_mem_cons.mp insides
    obtain ⟨apart, distinct⟩ := List.pairwise_cons.mp distinct
    obtain ⟨⟨partner, own, same⟩, found⟩ := List.forall_mem_cons.mp found
    have fits : Alike entry.1 partner.1 := (List.find?_some own :)
    obtain ⟨before, behind, rfl⟩ := List.append_of_mem (List.mem_of_find?_eq_some own)
    have insides'' : ∀ entry ∈ before ++ behind, among entry.1 :=
      fun entry member => insides' entry (List.perm_middle.symm.subset (List.mem_cons_of_mem _ member))
    have size' : entries.length = (before ++ behind).length := by simpa using size.trans List.perm_middle.length_eq
    have others : ∀ entry ∈ entries, ∃ other,
        (before ++ behind).find? (fun candidate => alike entry.1 candidate.1) = some other ∧ Alike entry.2 other.2 := by
      intro other member
      have unfit : ¬ Alike other.1 partner.1 := by
        intro fits'
        have inside' := insides' partner (by simp)
        have twice := equivalent.trans inside inside' (insides other member) fits
          (equivalent.symm (insides other member) inside' fits')
        exact Bool.false_ne_true ((apart other member).symm.trans twice)
      obtain ⟨partner', taken, same'⟩ := found other member
      rw [List.find?_append, List.find?_cons, Bool.eq_false_iff.mpr unfit, ← List.find?_append] at taken
      exact ⟨partner', taken, same'⟩
    obtain ⟨middle, each, order⟩ := ih insides insides'' distinct size' others
    exact ⟨partner :: middle, .cons ⟨fits, same⟩ each, (order.cons partner).trans List.perm_middle.symm⟩

theorem alikeEntries_of_reordered (equivalent : EquivalentAmong among Alike) {entries entries' : List (Value × Value)}
    (insides : ∀ entry ∈ entries, among entry.1) (insides' : ∀ entry ∈ entries', among entry.1) (distinct : Distinct entries')
    (reordered : Reordered AlikeEntry entries entries') :
    entries.length = entries'.length ∧ alikeEntries entries entries' = true := by
  obtain ⟨middle, each, order⟩ := reordered
  refine ⟨each.length_eq.trans order.length_eq, alikeEntries_iff.mpr ?_⟩
  have within := order.subset
  clear order
  induction each with
  | nil => simp
  | @cons entry partner _ _ first rest ih =>
    obtain ⟨inside, insides⟩ := List.forall_mem_cons.mp insides
    obtain ⟨member, within⟩ := List.cons_subset.mp within
    exact List.forall_mem_cons.mpr
      ⟨⟨partner, find_of_mem equivalent inside insides' distinct member first.1, first.2⟩, ih insides within⟩

private theorem equalsInt_iff_of_exact {number : Number.Binary64} {amount : Amount} (exact : number.amount? = some amount)
    (integer : Int) : number.equalsInt integer = true ↔ amount = .finite integer := by
  rw [Number.Binary64.equalsInt_iff, exact, Option.some.injEq]

theorem alike_of_amount {left right : Value} {amount amount' : Amount} (one : left.amount? = some amount)
    (other : right.amount? = some amount') : Alike left right ↔ amount = amount' := by
  fun_cases alike left right with
  | case3 flag flag' =>
    cases one
    cases other
    cases flag <;> cases flag' <;> simp [Alike, alike, ofFlag]
  -- Whole numbers and truth values on both sides, then floating point numbers on the right and on the left.
  | case4 | case6 | case7 =>
    cases one
    cases other
    simp [Alike, alike]
  | case5 | case8 =>
    cases one
    simp only [Alike, alike]
    exact (equalsInt_iff_of_exact other _).trans eq_comm
  | case9 | case10 =>
    cases other
    simp only [Alike, alike]
    exact equalsInt_iff_of_exact one _
  | case11 number number' =>
    rw [Alike, alike, Bool.or_eq_true, decide_eq_true_eq, Number.Binary64.equals_iff]
    constructor
    · rintro (rfl | ⟨both, one', other'⟩)
      · exact Option.some_inj.mp (one.symm.trans other)
      · exact Option.some_inj.mp (one.symm.trans (one'.trans (other'.symm.trans other)))
    · rintro rfl
      exact .inr ⟨amount, one, other⟩
  | case18 left right =>
    cases left <;> cases right <;> simp_all [amount?]
  | _ => cases one

private theorem matches_of_alike (equivalent : EquivalentAmong among Alike) {left right : Value} (definite : left.Definite)
    (definite' : right.Definite) (inside : ∀ part ∈ left.parts, among part) (inside' : ∀ part ∈ right.parts, among part)
    (same : left.alike right = true) : Matches Alike left right := by
  have exact {number : Number.Binary64} (definite : (Value.float number).Definite) : ∃ amount, number.amount? = some amount :=
    Option.isSome_iff_exists.mp definite
  have numbers {left right : Value} {amount amount' : Amount} (one : left.amount? = some amount)
      (other : right.amount? = some amount') (same : Alike left right) : Matches Alike left right :=
    .number one ((alike_of_amount one other).mp same ▸ other)
  fun_cases alike left right with
  | case1 => exact .null
  | case2 => exact .missing
  -- What is not a floating point number has its amount by definition.
  | case3 | case4 | case6 | case7 => exact numbers rfl rfl same
  | case5 | case8 =>
    obtain ⟨amount', other⟩ := exact definite'
    exact numbers rfl other same
  | case9 | case10 =>
    obtain ⟨amount, one⟩ := exact definite
    exact numbers one rfl same
  | case11 number number' =>
    obtain ⟨amount, one⟩ := exact definite
    obtain ⟨amount', other⟩ := exact definite'
    exact numbers one other same
  | case12 content content' =>
    cases (of_decide_eq_true same : content = content')
    exact .text content
  | case13 content content' =>
    cases (of_decide_eq_true same : content = content')
    exact .bytes content
  | case14 items items' => exact .list (alikeEach_iff.mp same)
  | case15 items items' => exact .tuple (alikeEach_iff.mp same)
  | case16 entries entries' =>
    obtain ⟨size, found⟩ := Bool.and_eq_true_iff.mp same
    exact .dict (reordered_of_alikeEntries equivalent (among_keys inside) (among_keys inside') definite.1
      (of_decide_eq_true size) found)
  | case17 id id' =>
    cases (of_decide_eq_true same : id = id')
    exact .stream id
  | case18 left right => simp_all [alike]

private theorem alike_of_matches (equivalent : EquivalentAmong among Alike) {left right : Value}
    (definite' : right.Definite) (inside : ∀ part ∈ left.parts, among part) (inside' : ∀ part ∈ right.parts, among part)
    (matching : Matches Alike left right) : left.alike right = true := by
  cases matching with
  | null => rfl
  | missing => rfl
  | number one other => exact (alike_of_amount one other).mpr rfl
  | text content => simp [alike]
  | bytes content => simp [alike]
  | stream id => simp [alike]
  | list each => exact alikeEach_iff.mpr each
  | tuple each => exact alikeEach_iff.mpr each
  | dict entry =>
    obtain ⟨size, found⟩ := alikeEntries_of_reordered equivalent (among_keys inside) (among_keys inside') definite'.1 entry
    simp [alike, size, found]

end

def isFlag : Value → Bool
  | .bool _ => true
  | _ => false

/-- What a value holds is smaller than the value, so contents are compared by an equivalence if values below a bound are. -/
private theorem alike_equivalent_below (bound : Nat) :
    EquivalentAmong (fun value => value.Definite ∧ sizeOf value < bound) Alike := by
  induction bound with
  | zero =>
    have none {value : Value} (among : value.Definite ∧ sizeOf value < 0) : False := absurd among.2 (Nat.not_lt_zero _)
    exact ⟨fun one => (none one).elim, fun one => (none one).elim, fun one => (none one).elim⟩
  | succ bound ih =>
    have inside {value : Value} (among : value.Definite ∧ sizeOf value < bound + 1) :
        ∀ part ∈ value.parts, part.Definite ∧ sizeOf part < bound := by
      intro part member
      have smaller := sizeOf_lt_of_mem_parts member
      exact ⟨among.1.part member, by omega⟩
    have iff {left right : Value} (one : left.Definite ∧ sizeOf left < bound + 1)
        (other : right.Definite ∧ sizeOf right < bound + 1) : Alike left right ↔ Matches Alike left right :=
      ⟨matches_of_alike ih one.1 other.1 (inside one) (inside other), alike_of_matches ih other.1 (inside one) (inside other)⟩
    have matching := Matches.equivalent ih
    constructor
    · intro value one
      exact (iff one one).mpr (matching.refl ⟨one.1, inside one⟩)
    · intro value value' one other same
      exact (iff other one).mpr (matching.symm ⟨one.1, inside one⟩ ⟨other.1, inside other⟩ ((iff one other).mp same))
    · intro value value' value'' one other third same same'
      exact (iff one third).mpr (matching.trans ⟨one.1, inside one⟩ ⟨other.1, inside other⟩ ⟨third.1, inside third⟩
        ((iff one other).mp same) ((iff other third).mp same'))

theorem alike_equivalent : EquivalentAmong Definite Alike where
  refl := fun {value} definite => (alike_equivalent_below (sizeOf value + 1)).refl ⟨definite, by omega⟩
  symm := fun {value value'} definite definite' =>
    (alike_equivalent_below (sizeOf value + sizeOf value' + 1)).symm ⟨definite, by omega⟩ ⟨definite', by omega⟩
  trans := fun {value value' value''} definite definite' definite'' =>
    (alike_equivalent_below (sizeOf value + sizeOf value' + sizeOf value'' + 1)).trans ⟨definite, by omega⟩
      ⟨definite', by omega⟩ ⟨definite'', by omega⟩

section
variable {left right : Value} (definite : left.Definite) (definite' : right.Definite)
include definite definite'

theorem alike_iff_matches : Alike left right ↔ Matches Alike left right :=
  ⟨matches_of_alike alike_equivalent definite definite' (fun _ => definite.part) (fun _ => definite'.part),
    alike_of_matches alike_equivalent definite' (fun _ => definite.part) (fun _ => definite'.part)⟩

/-- At the top truth values are no numbers. There is no other difference. -/
theorem strictEquals_iff_alike : strictEquals left right = true ↔ left.isFlag = right.isFlag ∧ Alike left right := by
  fun_cases strictEquals left right with
  | case1 number number' =>
    obtain ⟨amount, exact⟩ := Option.isSome_iff_exists.mp definite
    have same : number.equals number' = true ↔ Alike (.float number) (.float number') := by
      rw [Alike, alike, Bool.or_eq_true, decide_eq_true_eq]
      refine (or_iff_right_of_imp ?_).symm
      rintro rfl
      exact Number.Binary64.equals_iff.mpr ⟨amount, exact, exact⟩
    simp only [same, isFlag, true_and]
  | case6 left right floats apart apart' apart'' apart''' =>
    have flags (same : Alike left right) : left.isFlag = right.isFlag := by
      cases left <;> cases right <;> simp_all [isFlag, Alike, alike]
    exact (and_iff_right_of_imp flags).symm
  | _ => simp [isFlag]

end

theorem truthy_of_amount {value : Value} {amount : Amount} (known : value.amount? = some amount) :
    value.truthy = true ↔ amount ≠ .finite 0 := by
  cases value with
  | bool flag =>
    cases known
    cases flag <;> simp [truthy, ofFlag]
  | int number =>
    cases known
    simp [truthy]
  | float number =>
    have zero := @Number.Binary64.amount_eq_iff number 0
    rw [Int.cast_zero, zero_div, show number.amount? = some amount from known, Option.some.injEq] at zero
    rw [truthy, Number.Binary64.isZero, Bool.not_eq_true', decide_eq_false_iff_not, ← zero]
  | _ => cases known

theorem Matches.truthy {left right : Value} (matching : Matches Alike left right) : left.truthy = right.truthy := by
  cases matching with
  | number one other => exact Bool.eq_iff_iff.mpr ((truthy_of_amount one).trans (truthy_of_amount other).symm)
  | list each =>
    cases each <;> rfl
  | tuple each =>
    cases each <;> rfl
  | @dict entries entries' entry =>
    obtain ⟨middle, each, order⟩ := entry
    have size := each.length_eq.trans order.length_eq
    match entries, entries', size with
    | [], [], _ => rfl
    | _ :: _, _ :: _, _ => rfl
  | _ => rfl

/-- Equality as conditions see it is an equivalence, and it keeps truth. Numbers are compared exactly, and the contents of
collections by the equality that takes truth values for numbers, at every depth. A mapping never comes with a key twice. -/
theorem strictEquals_equivalence :
    Equivalence (fun left right : { value : Value // value.Definite } => strictEquals left right = true) ∧
    (∀ {left right : Value}, left.Definite → right.Definite →
      (strictEquals left right = true → left.truthy = right.truthy) ∧
      (strictEquals left right = true ↔ left.isFlag = right.isFlag ∧ Matches Alike left right) ∧
      (Alike left right ↔ Matches Alike left right)) ∧
    (∀ (integer : Int) (number : Number.Binary64),
      (strictEquals (.int integer) (.float number) = true ↔ number.amount? = some (.finite integer)) ∧
      (strictEquals (.float number) (.int integer) = true ↔ number.amount? = some (.finite integer))) ∧
    ∀ pairs : List (Value × Value), (∀ pair ∈ pairs, pair.1.Definite ∧ pair.2.Definite) → (dictOf pairs).Definite := by
  have told {left right : Value} (definite : left.Definite) (definite' : right.Definite) :
      strictEquals left right = true ↔ left.isFlag = right.isFlag ∧ Alike left right :=
    strictEquals_iff_alike definite definite'
  refine ⟨⟨?refl, ?symm, ?trans⟩, ?_, ?_, fun _ => definite_dictOf⟩
  case refl =>
    rintro ⟨value, definite⟩
    exact (told definite definite).mpr ⟨rfl, alike_equivalent.refl definite⟩
  case symm =>
    rintro ⟨left, definite⟩ ⟨right, definite'⟩ equal
    obtain ⟨flags, same⟩ := (told definite definite').mp equal
    exact (told definite' definite).mpr ⟨flags.symm, alike_equivalent.symm definite definite' same⟩
  case trans =>
    rintro ⟨left, definite⟩ ⟨middle, definite'⟩ ⟨right, definite''⟩ equal equal'
    obtain ⟨flags, same⟩ := (told definite definite').mp equal
    obtain ⟨flags', same'⟩ := (told definite' definite'').mp equal'
    exact (told definite definite'').mpr
      ⟨flags.trans flags', alike_equivalent.trans definite definite' definite'' same same'⟩
  · intro left right definite definite'
    have matching := alike_iff_matches definite definite'
    refine ⟨fun equal => ?_, (told definite definite').trans (and_congr_right' matching), matching⟩
    exact (matching.mp ((told definite definite').mp equal).2).truthy
  · intro integer number
    exact ⟨Number.Binary64.equalsInt_iff, Number.Binary64.equalsInt_iff⟩

def rates : Value := .dict [(.bool true, .list [.int 1, .float (.finite false Number.unitsPerOne)]), (.text "rate", .int 0)]

def ratesRespelled : Value :=
  .dict [(.text "rate", .bool false), (.float (.finite false Number.unitsPerOne), .list [.bool true, .int 1])]

/-- Inside collections the truth value true is the number one, and the order of entries does not matter. -/
theorem strictEquals_equivalence_rates : rates.Definite ∧ ratesRespelled.Definite ∧ strictEquals rates ratesRespelled = true ∧
    strictEquals ratesRespelled rates = true ∧ rates.truthy = ratesRespelled.truthy ∧
    strictEquals (.bool true) (.float (.finite false Number.unitsPerOne)) = false := by
  obtain ⟨equivalence, told, _, made⟩ := strictEquals_equivalence
  have equal : strictEquals rates ratesRespelled = true := by decide +kernel
  have definite : rates.Definite := made
    [(.bool true, .list [.int 1, .float (.finite false Number.unitsPerOne)]), (.text "rate", .int 0)]
    (by simp [Definite, DefiniteEach]; rfl)
  have definite' : ratesRespelled.Definite := made
    [(.text "rate", .bool false), (.float (.finite false Number.unitsPerOne), .list [.bool true, .int 1])]
    (by simp [Definite, DefiniteEach]; rfl)
  have other := equivalence.symm (show strictEquals (⟨rates, definite⟩ : { value : Value // value.Definite })
    (⟨ratesRespelled, definite'⟩ : { value : Value // value.Definite }) = true from equal)
  exact ⟨definite, definite', equal, other, (told definite definite').1 equal, rfl⟩

end Value
end Stencil
