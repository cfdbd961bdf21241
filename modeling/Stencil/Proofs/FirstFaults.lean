import Stencil.Proofs.TokenRun

/-! Work that fails at the first thing amiss. Where each piece fails exactly with what is amiss there, pieces one after the
other fail exactly with what is amiss first. -/

namespace Stencil.Command

variable {ι ε α β : Type} {amiss : ι → ε → Prop}

/-- The item is the first with something amiss, which is the problem. -/
def First (amiss : ι → ε → Prop) (items : List ι) (item : ι) (problem : ε) : Prop :=
  ∃ before after, items = before ++ item :: after ∧ (∀ earlier ∈ before, ∀ other, ¬ amiss earlier other) ∧ amiss item problem

/-- What is amiss first with the items is the only error. -/
def Covers (amiss : ι → ε → Prop) (items : List ι) (result : Except ε α) : Prop :=
  ∀ problem, result = .error problem ↔ ∃ item, First amiss items item problem

theorem First.head {item : ι} {problem : ε} (found : amiss item problem) (items : List ι) :
    First amiss (item :: items) item problem :=
  ⟨[], items, rfl, nofun, found⟩

theorem First.found {items : List ι} {item : ι} {problem : ε} (first : First amiss items item problem) :
    amiss item problem := by
  obtain ⟨-, -, -, -, found⟩ := first
  exact found

theorem First.mem {items : List ι} {item : ι} {problem : ε} (first : First amiss items item problem) : item ∈ items := by
  obtain ⟨before, after, rfl, -⟩ := first
  exact List.mem_append_right _ List.mem_cons_self

theorem not_first_nil (item : ι) (problem : ε) : ¬ First amiss [] item problem := by
  rintro ⟨before, after, same, -⟩
  cases before <;> cases same

theorem first_cons {head : ι} {items : List ι} {item : ι} {problem : ε} : First amiss (head :: items) item problem ↔
    (item = head ∧ amiss head problem) ∨ ((∀ other, ¬ amiss head other) ∧ First amiss items item problem) := by
  constructor
  · rintro ⟨before, after, same, clean, found⟩
    cases before with
    | nil => cases same; exact .inl ⟨rfl, found⟩
    | cons earlier before =>
      cases same
      exact .inr ⟨clean _ List.mem_cons_self, before, after, rfl, fun item inside => clean item (.tail _ inside), found⟩
  · rintro (⟨rfl, found⟩ | ⟨clear, before, after, rfl, clean, found⟩)
    · exact .head found items
    · exact ⟨head :: before, after, rfl, List.forall_mem_cons.mpr ⟨clear, clean⟩, found⟩

theorem first_append {before after : List ι} {problem : ε} : (∃ item, First amiss (before ++ after) item problem) ↔
    (∃ item, First amiss before item problem) ∨
      (∀ item ∈ before, ∀ other, ¬ amiss item other) ∧ ∃ item, First amiss after item problem := by
  induction before with
  | nil => simp [not_first_nil]
  | cons head before ih =>
    simp only [List.cons_append, first_cons, exists_or, ih, exists_and_left, List.forall_mem_cons]
    grind

theorem exists_first {items : List ι} {item : ι} {problem : ε} (inside : item ∈ items) (found : amiss item problem) :
    ∃ item problem, First amiss items item problem := by
  induction items with
  | nil => cases inside
  | cons head items ih =>
    by_cases clear : ∀ other, ¬ amiss head other
    · cases inside with
      | head => exact absurd found (clear _)
      | tail _ inside =>
        obtain ⟨item, problem, first⟩ := ih inside
        exact ⟨item, problem, first_cons.mpr (.inr ⟨clear, first⟩)⟩
    · simp only [Classical.not_forall, Classical.not_not] at clear
      obtain ⟨other, found⟩ := clear
      exact ⟨head, other, first_cons.mpr (.inl ⟨rfl, found⟩)⟩

namespace Covers

theorem clean {items : List ι} {value : α} (covers : Covers amiss items (.ok value)) :
    ∀ item ∈ items, ∀ problem, ¬ amiss item problem := by
  intro item inside problem found
  obtain ⟨first, other, found⟩ := exists_first inside found
  cases (covers other).mpr ⟨first, found⟩

theorem succeeds {items : List ι} {result : Except ε α} (covers : Covers amiss items result)
    (clean : ∀ item ∈ items, ∀ problem, ¬ amiss item problem) : ∃ value, result = .ok value := by
  cases result with
  | ok value => exact ⟨value, rfl⟩
  | error problem =>
    obtain ⟨item, before, after, rfl, -, found⟩ := (covers problem).mp rfl
    exact absurd found (clean item (List.mem_append_right _ List.mem_cons_self) problem)

theorem pure {items : List ι} (clean : ∀ item ∈ items, ∀ problem, ¬ amiss item problem) (value : α) :
    Covers amiss items (.ok value : Except ε α) := by
  intro problem
  refine ⟨nofun, ?_⟩
  rintro ⟨item, before, after, rfl, -, found⟩
  exact absurd found (clean item (List.mem_append_right _ List.mem_cons_self) problem)

theorem fails {item : ι} {problem : ε} (found : ∀ other, amiss item other ↔ other = problem) (items : List ι) :
    Covers amiss (item :: items) (.error problem : Except ε α) := by
  intro other
  constructor
  · rintro ⟨⟩
    exact ⟨item, first_cons.mpr (.inl ⟨rfl, (found problem).mpr rfl⟩)⟩
  · rintro ⟨_, first⟩
    obtain ⟨-, same⟩ | ⟨clear, -⟩ := first_cons.mp first
    · rw [(found other).mp same]
    · exact absurd ((found problem).mpr rfl) (clear problem)

theorem skip {item : ι} {items : List ι} {result : Except ε α} (clear : ∀ other, ¬ amiss item other)
    (rest : Covers amiss items result) : Covers amiss (item :: items) result := by
  intro problem
  simp only [rest problem, first_cons, clear, and_false, false_or, not_false_eq_true, implies_true, true_and]

theorem single {item : ι} {result : Except ε α} (found : ∀ problem, result = .error problem ↔ amiss item problem) :
    Covers amiss [item] result := by
  intro problem
  simp only [found, first_cons, not_first_nil, and_false, or_false, exists_eq_left]

theorem bind {before after : List ι} {result : Except ε α} {next : α → Except ε β} (first : Covers amiss before result)
    (rest : ∀ value, result = .ok value → Covers amiss after (next value)) :
    Covers amiss (before ++ after) (result >>= next) := by
  intro problem
  rw [bind_error_iff, first_append, ← first problem]
  apply or_congr_right
  constructor
  · rintro ⟨value, rfl, failed⟩
    exact ⟨first.clean, (rest value rfl problem).mp failed⟩
  · rintro ⟨clean, found⟩
    obtain ⟨value, rfl⟩ := first.succeeds clean
    exact ⟨value, rfl, (rest value rfl problem).mpr found⟩

theorem foldlM {step : α → ι → Except ε α} (each : ∀ sum item problem, step sum item = .error problem ↔ amiss item problem)
    (items : List ι) (start : α) : Covers amiss items (items.foldlM step start) := by
  induction items generalizing start with
  | nil => exact pure nofun start
  | cons item items ih => exact bind (single (each start item)) fun value _ => ih value

end Covers

end Stencil.Command
