import Mathlib
import Stencil.Proofs.IntegerRounding
import Stencil.Value.Same

/-! What it is for values to match. Numbers match if they are the same rational number or infinity, collections if their
contents do, where entries under keys come in any order. Whatever compares the contents, matching is an equivalence if that is. -/

namespace Stencil

section Among
variable {α β : Type} {among : α → Prop} {same : α → α → Prop}

/-- The relation is an equivalence as far as the members of a set are concerned. -/
structure EquivalentAmong (among : α → Prop) (same : α → α → Prop) : Prop where
  refl : ∀ {one}, among one → same one one
  symm : ∀ {one other}, among one → among other → same one other → same other one
  trans : ∀ {one other third}, among one → among other → among third → same one other → same other third → same one third

namespace EquivalentAmong

theorem pairs (equivalent : EquivalentAmong among same) : EquivalentAmong (fun pair : α × α => among pair.1 ∧ among pair.2)
    (fun pair pair' => same pair.1 pair'.1 ∧ same pair.2 pair'.2) where
  refl := fun ⟨first, second⟩ => ⟨equivalent.refl first, equivalent.refl second⟩
  symm := fun ⟨first, second⟩ ⟨first', second'⟩ ⟨one, two⟩ =>
    ⟨equivalent.symm first first' one, equivalent.symm second second' two⟩
  trans := fun ⟨first, second⟩ ⟨first', second'⟩ ⟨first'', second''⟩ ⟨one, two⟩ ⟨one', two'⟩ =>
    ⟨equivalent.trans first first' first'' one one', equivalent.trans second second' second'' two two'⟩

theorem each (equivalent : EquivalentAmong among same) :
    EquivalentAmong (fun items => ∀ item ∈ items, among item) (List.Forall₂ same) where
  refl := fun members => List.forall₂_same.mpr fun item inside => equivalent.refl (members item inside)
  symm := by
    intro items items' members members' each
    induction each with
    | nil => exact .nil
    | cons first rest ih =>
      obtain ⟨member, members⟩ := List.forall_mem_cons.mp members
      obtain ⟨member', members'⟩ := List.forall_mem_cons.mp members'
      exact .cons (equivalent.symm member member' first) (ih members members')
  trans := by
    intro items items' items'' members members' members'' each each'
    induction each generalizing items'' with
    | nil =>
      cases each'
      exact .nil
    | cons first rest ih =>
      cases each' with
      | cons first' rest' =>
        obtain ⟨member, members⟩ := List.forall_mem_cons.mp members
        obtain ⟨member', members'⟩ := List.forall_mem_cons.mp members'
        obtain ⟨member'', members''⟩ := List.forall_mem_cons.mp members''
        exact .cons (equivalent.trans member member' member'' first first') (ih members members' members'' rest')

end EquivalentAmong

/-- The items of both lists correspond one to one, in whatever order. -/
def Reordered (same : α → α → Prop) (items items' : List α) : Prop :=
  ∃ middle, List.Forall₂ same items middle ∧ middle.Perm items'

theorem EquivalentAmong.reordered (equivalent : EquivalentAmong among same) :
    EquivalentAmong (fun items => ∀ item ∈ items, among item) (Reordered same) where
  refl := fun {items} members => ⟨items, equivalent.each.refl members, .refl _⟩
  symm := by
    rintro items items' members members' ⟨middle, each, order⟩
    have between : ∀ item ∈ middle, among item := fun item inside => members' item (order.subset inside)
    exact List.perm_comp_forall₂ order.symm (equivalent.each.symm members between each)
  trans := by
    rintro items items' items'' members members' members'' ⟨middle, each, order⟩ ⟨middle', each', order'⟩
    obtain ⟨last, further, order''⟩ := List.perm_comp_forall₂ order each'
    have between : ∀ item ∈ middle, among item := fun item inside => members' item (order.subset inside)
    have beyond : ∀ item ∈ last, among item := fun item inside => members'' item ((order''.trans order').subset inside)
    exact ⟨last, equivalent.each.trans members between beyond each further, order''.trans order'⟩

end Among

namespace Number

/-- A rational number or an infinity. -/
inductive Amount where
  | finite (number : ℚ)
  | infinite (negative : Bool)
  deriving DecidableEq

namespace Binary64

/-- The number itself, without rounding. An undefined one is none. -/
def amount? : Binary64 → Option Amount
  | .finite negative units => some (.finite ((if negative then -(units : ℚ) else units) / unitsPerOne))
  | .infinite negative => some (.infinite negative)
  | .undefined _ => none

private theorem unitsPerOne_ne_zero : (unitsPerOne : ℚ) ≠ 0 := Nat.cast_ne_zero.mpr unitsPerOne_pos.ne'

/-- The number in units tells the number. -/
theorem amount_eq_iff {number : Binary64} {units : Int} :
    number.amount? = some (.finite (units / unitsPerOne)) ↔ number.toUnits? = some units := by
  cases number with
  | finite negative amount =>
    simp only [amount?, toUnits?, Option.some.injEq, Amount.finite.injEq, div_left_inj' unitsPerOne_ne_zero]
    cases negative <;> simp only [if_true, Bool.false_eq_true, if_false] <;> norm_cast
  | infinite negative => simp only [amount?, toUnits?, Option.some.injEq, reduceCtorEq]
  | undefined label => simp only [amount?, toUnits?, reduceCtorEq]

theorem equalsInt_iff {number : Binary64} {integer : Int} :
    number.equalsInt integer = true ↔ number.amount? = some (.finite integer) := by
  have whole : (integer : ℚ) = (integer * unitsPerOne : Int) / unitsPerOne := by
    rw [eq_div_iff unitsPerOne_ne_zero, Int.cast_mul, Int.cast_natCast]
  rw [whole, amount_eq_iff, equalsInt, decide_eq_true_eq]

theorem equals_iff {left right : Binary64} : left.equals right = true ↔
    ∃ amount, left.amount? = some amount ∧ right.amount? = some amount := by
  fun_cases equals left right with
  | case1 left right => simp [amount?, eq_comm]
  | case2 left right other =>
    constructor
    · intro equal
      obtain ⟨some, same⟩ := Bool.and_eq_true_iff.mp equal
      obtain ⟨units, held⟩ := Option.isSome_iff_exists.mp some
      have held' : right.toUnits? = .some units := (of_decide_eq_true same).symm.trans held
      exact ⟨_, amount_eq_iff.mpr held, amount_eq_iff.mpr held'⟩
    · rintro ⟨amount, one, two⟩
      cases left with
      | finite negative units =>
        have held : toUnits? (.finite negative units) = some _ := rfl
        have same : some amount = some (.finite _) := one.symm.trans (amount_eq_iff.mpr held)
        have held' := amount_eq_iff.mp (two.trans same)
        rw [held, held']
        simp
      | infinite negative =>
        cases one
        cases right with
        | finite negative' units => cases two
        | infinite negative' => exact absurd rfl (other negative negative' rfl)
        | undefined label => cases two
      | undefined label => cases one

end Binary64
end Number

namespace Value
open Number (Amount)

/-- The number that a value stands for inside collections, where truth values stand for one and zero. -/
def amount? : Value → Option Amount
  | .bool flag => some (.finite (ofFlag flag))
  | .int number => some (.finite number)
  | .float number => number.amount?
  | _ => none

/-- What a collection holds. Of entries both the key and the value are parts. -/
def parts : Value → List Value
  | .list items | .tuple items => items
  | .dict entries => entries.map Prod.fst ++ entries.map Prod.snd
  | _ => []

def Distinct (entries : List (Value × Value)) : Prop :=
  entries.Pairwise fun entry other => alike entry.1 other.1 = false

mutual
/-- No number in the value is undefined, and no key stands twice in a collection. -/
def Definite : Value → Prop
  | .float number => number.amount?.isSome = true
  | .list items | .tuple items => DefiniteEach items
  | .dict entries => Distinct entries ∧ DefiniteEntries entries
  | .null | .missing | .bool _ | .int _ | .text _ | .bytes _ | .stream _ => True

def DefiniteEach : List Value → Prop
  | [] => True
  | item :: items => item.Definite ∧ DefiniteEach items

def DefiniteEntries : List (Value × Value) → Prop
  | [] => True
  | (key, value) :: entries => (key.Definite ∧ value.Definite) ∧ DefiniteEntries entries
end

theorem definiteEach_iff {items : List Value} : DefiniteEach items ↔ ∀ item ∈ items, item.Definite := by
  induction items with
  | nil => simp [DefiniteEach]
  | cons item items ih => simp [DefiniteEach, ih]

theorem definiteEntries_iff {entries : List (Value × Value)} :
    DefiniteEntries entries ↔ ∀ entry ∈ entries, entry.1.Definite ∧ entry.2.Definite := by
  induction entries with
  | nil => simp [DefiniteEntries]
  | cons entry entries ih => simp only [DefiniteEntries, ih, List.forall_mem_cons]

theorem sizeOf_lt_of_mem_parts {part value : Value} (member : part ∈ value.parts) : sizeOf part < sizeOf value := by
  cases value with
  | list items =>
    have smaller : sizeOf part < sizeOf items := List.sizeOf_lt_of_mem member
    rw [list.sizeOf_spec]
    omega
  | tuple items =>
    have smaller : sizeOf part < sizeOf items := List.sizeOf_lt_of_mem member
    rw [tuple.sizeOf_spec]
    omega
  | dict entries =>
    have within {entry : Value × Value} (inside : entry ∈ entries) :
        sizeOf entry.1 < sizeOf entries ∧ sizeOf entry.2 < sizeOf entries := by
      obtain ⟨key, held⟩ := entry
      have smaller := List.sizeOf_lt_of_mem inside
      rw [Prod.mk.sizeOf_spec] at smaller
      constructor <;> dsimp only <;> omega
    rw [dict.sizeOf_spec]
    rcases List.mem_append.mp member with key | held
    · obtain ⟨entry, inside, rfl⟩ := List.mem_map.mp key
      have := (within inside).1
      omega
    · obtain ⟨entry, inside, rfl⟩ := List.mem_map.mp held
      have := (within inside).2
      omega
  | _ => cases member

theorem Definite.part {part value : Value} (definite : value.Definite) (member : part ∈ value.parts) : part.Definite := by
  cases value with
  | list items => exact definiteEach_iff.mp definite part member
  | tuple items => exact definiteEach_iff.mp definite part member
  | dict entries =>
    have each := definiteEntries_iff.mp definite.2
    rcases List.mem_append.mp member with key | held
    · obtain ⟨entry, inside, rfl⟩ := List.mem_map.mp key
      exact (each entry inside).1
    · obtain ⟨entry, inside, rfl⟩ := List.mem_map.mp held
      exact (each entry inside).2
  | _ => cases member

theorem mem_put {key value : Value} {entries : List (Value × Value)} {entry : Value × Value}
    (member : entry ∈ put key value entries) :
    (entry.1 = key ∨ ∃ entry' ∈ entries, entry'.1 = entry.1) ∧ (entry.2 = value ∨ ∃ entry' ∈ entries, entry'.2 = entry.2) := by
  induction entries with
  | nil =>
    cases List.mem_singleton.mp member
    exact ⟨.inl rfl, .inl rfl⟩
  | cons first rest ih =>
    obtain ⟨other, held⟩ := first
    rw [put] at member
    split at member
    · rcases List.mem_cons.mp member with rfl | later
      · exact ⟨.inr ⟨_, List.mem_cons_self, rfl⟩, .inl rfl⟩
      · exact ⟨.inr ⟨_, List.mem_cons_of_mem _ later, rfl⟩, .inr ⟨_, List.mem_cons_of_mem _ later, rfl⟩⟩
    · rcases List.mem_cons.mp member with rfl | later
      · exact ⟨.inr ⟨_, List.mem_cons_self, rfl⟩, .inr ⟨_, List.mem_cons_self, rfl⟩⟩
      · obtain ⟨own, content⟩ := ih later
        exact ⟨own.imp_right fun ⟨entry', inside, same⟩ => ⟨entry', List.mem_cons_of_mem _ inside, same⟩,
          content.imp_right fun ⟨entry', inside, same⟩ => ⟨entry', List.mem_cons_of_mem _ inside, same⟩⟩

theorem distinct_put {key value : Value} {entries : List (Value × Value)} (distinct : Distinct entries) :
    Distinct (put key value entries) := by
  induction entries with
  | nil => exact List.pairwise_singleton _ _
  | cons first rest ih =>
    obtain ⟨other, held⟩ := first
    obtain ⟨apart, distinct⟩ := List.pairwise_cons.mp distinct
    rw [put]
    split
    · exact .cons apart distinct
    · refine .cons ?_ (ih distinct)
      intro entry member
      rcases (mem_put member).1 with rfl | ⟨entry', inside, same⟩
      · simp_all
      · exact same ▸ apart entry' inside

theorem definiteEntries_put {key value : Value} {entries : List (Value × Value)} (definite : key.Definite ∧ value.Definite)
    (each : DefiniteEntries entries) : DefiniteEntries (put key value entries) := by
  rw [definiteEntries_iff] at each ⊢
  intro entry member
  obtain ⟨own, content⟩ := mem_put member
  constructor
  · rcases own with same | ⟨entry', inside, same⟩
    · exact same ▸ definite.1
    · exact same ▸ (each entry' inside).1
  · rcases content with same | ⟨entry', inside, same⟩
    · exact same ▸ definite.2
    · exact same ▸ (each entry' inside).2

theorem definite_dictOf {pairs : List (Value × Value)} (each : ∀ pair ∈ pairs, pair.1.Definite ∧ pair.2.Definite) :
    (dictOf pairs).Definite := by
  rw [dictOf]
  have start : Distinct [] ∧ DefiniteEntries [] := ⟨.nil, trivial⟩
  revert start
  generalize ([] : List (Value × Value)) = entries
  intro start
  induction pairs generalizing entries with
  | nil => exact start
  | cons pair pairs ih =>
    obtain ⟨definite, each⟩ := List.forall_mem_cons.mp each
    exact ih each _ ⟨distinct_put start.1, definiteEntries_put definite start.2⟩

/-- One level of equality: the numbers are the same, or the contents of both collections are the same to whoever compares
those. Entries come in any order. -/
inductive Matches (same : Value → Value → Prop) : Value → Value → Prop
  | null : Matches same .null .null
  | missing : Matches same .missing .missing
  | number {left right : Value} {amount : Amount} (one : left.amount? = some amount) (other : right.amount? = some amount) :
      Matches same left right
  | text (content : List Text.CodePoint) : Matches same (.text content) (.text content)
  | bytes (content : List UInt8) : Matches same (.bytes content) (.bytes content)
  | stream (id : Nat) : Matches same (.stream id) (.stream id)
  | list {items items' : List Value} (each : List.Forall₂ same items items') : Matches same (.list items) (.list items')
  | tuple {items items' : List Value} (each : List.Forall₂ same items items') : Matches same (.tuple items) (.tuple items')
  | dict {entries entries' : List (Value × Value)}
      (entry : Reordered (fun entry entry' => same entry.1 entry'.1 ∧ same entry.2 entry'.2) entries entries') :
      Matches same (.dict entries) (.dict entries')

section
variable {among : Value → Prop} {same : Value → Value → Prop}

theorem among_entries {entries : List (Value × Value)} (inside : ∀ part ∈ (Value.dict entries).parts, among part) :
    ∀ entry ∈ entries, among entry.1 ∧ among entry.2 := by
  intro entry member
  exact ⟨inside _ (List.mem_append_left _ (List.mem_map_of_mem member)),
    inside _ (List.mem_append_right _ (List.mem_map_of_mem member))⟩

theorem among_keys {entries : List (Value × Value)} (inside : ∀ part ∈ (Value.dict entries).parts, among part) :
    ∀ entry ∈ entries, among entry.1 := fun entry member => (among_entries inside entry member).1

theorem Matches.equivalent (equivalent : EquivalentAmong among same) :
    EquivalentAmong (fun value => value.Definite ∧ ∀ part ∈ value.parts, among part) (Matches same) where
  refl := by
    rintro value ⟨definite, inside⟩
    cases value with
    | null => exact .null
    | missing => exact .missing
    | bool flag => exact .number rfl rfl
    | int number => exact .number rfl rfl
    | float number =>
      obtain ⟨amount, exact⟩ := Option.isSome_iff_exists.mp definite
      exact .number exact exact
    | text content => exact .text content
    | bytes content => exact .bytes content
    | stream id => exact .stream id
    | list items => exact .list (equivalent.each.refl inside)
    | tuple items => exact .tuple (equivalent.each.refl inside)
    | dict entries => exact .dict (equivalent.pairs.reordered.refl (among_entries inside))
  symm := by
    rintro left right ⟨_, inside⟩ ⟨_, inside'⟩ matching
    cases matching with
    | null => exact .null
    | missing => exact .missing
    | number one other => exact .number other one
    | text content => exact .text content
    | bytes content => exact .bytes content
    | stream id => exact .stream id
    | list each => exact .list (equivalent.each.symm inside inside' each)
    | tuple each => exact .tuple (equivalent.each.symm inside inside' each)
    | dict entry => exact .dict (equivalent.pairs.reordered.symm (among_entries inside) (among_entries inside') entry)
  trans := by
    rintro left middle right ⟨_, inside⟩ ⟨_, inside'⟩ ⟨_, inside''⟩ matching matching'
    cases matching with
    | null => exact matching'
    | missing => exact matching'
    | text content => exact matching'
    | bytes content => exact matching'
    | stream id => exact matching'
    | number one other =>
      cases matching' with
      | number one' other' =>
        cases other.symm.trans one'
        exact .number one other'
      | _ => cases other
    | list each =>
      cases matching' with
      | number one' _ => cases one'
      | list each' => exact .list (equivalent.each.trans inside inside' inside'' each each')
    | tuple each =>
      cases matching' with
      | number one' _ => cases one'
      | tuple each' => exact .tuple (equivalent.each.trans inside inside' inside'' each each')
    | dict entry =>
      cases matching' with
      | number one' _ => cases one'
      | dict entry' =>
        exact .dict (equivalent.pairs.reordered.trans (among_entries inside) (among_entries inside') (among_entries inside'')
          entry entry')

end

end Value
end Stencil
