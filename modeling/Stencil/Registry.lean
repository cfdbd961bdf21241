/-! The partials at hand: sources by name. -/

namespace Stencil

structure Registry where
  /-- In the order in which the names came first. -/
  entries : List (String × String)
  deriving DecidableEq, Repr

namespace Registry

def empty : Registry := ⟨[]⟩

def names (registry : Registry) : List String := registry.entries.map Prod.fst

def find? (registry : Registry) (name : String) : Option String := registry.entries.lookup name

def putEntry (name source : String) : List (String × String) → List (String × String)
  | [] => [(name, source)]
  | (other, held) :: rest => if other = name then (name, source) :: rest else (other, held) :: putEntry name source rest

def put (registry : Registry) (name source : String) : Registry := ⟨putEntry name source registry.entries⟩

def ofList (entries : List (String × String)) : Registry :=
  entries.foldl (fun registry (name, source) => registry.put name source) empty

def size (registry : Registry) : Nat := registry.entries.length

def unused (registry : Registry) (chain : List String) : List String := registry.names.filter (· ∉ chain)

theorem mem_names_of_find {registry : Registry} {name source : String} (found : registry.find? name = some source) :
    name ∈ registry.names := by
  unfold find? at found
  unfold names
  generalize registry.entries = entries at found ⊢
  induction entries with
  | nil => simp at found
  | cons entry rest ih =>
    obtain ⟨other, held⟩ := entry
    simp only [List.lookup_cons] at found
    split at found
    next same => simp [beq_iff_eq.mp same]
    next => exact List.mem_cons_of_mem _ (ih found)

theorem unused_shorter {registry : Registry} {chain : List String} {name : String} (registered : name ∈ registry.names)
    (fresh : name ∉ chain) : (registry.unused (chain ++ [name])).length < (registry.unused chain).length := by
  have left : registry.unused (chain ++ [name]) = (registry.unused chain).filter (· ≠ name) := by
    simp only [unused, List.filter_filter]
    congr
    funext other
    simp [and_comm]
  rw [left, List.length_filter_lt_length_iff_exists]
  exact ⟨name, by simp [unused, registered, fresh], by simp⟩

/-- Induction on what a chain can still grow by: a chain may rely on those that hold one more registered name. -/
theorem chain_induction (registry : Registry) {motive : List String → Prop} (chain : List String)
    (step : ∀ chain, (∀ name content, registry.find? name = some content → name ∉ chain → motive (chain ++ [name])) →
      motive chain) : motive chain := by
  induction size : (registry.unused chain).length using Nat.strongRecOn generalizing chain with
  | ind length ih =>
    refine step chain fun name content registered fresh => ih _ ?_ _ rfl
    exact size ▸ unused_shorter (mem_names_of_find registered) fresh

section
variable {registry : Registry} {name other content : String}

theorem find_put_self : (registry.put name content).find? name = some content := by
  obtain ⟨entries⟩ := registry
  simp only [find?, put]
  induction entries with
  | nil => simp only [putEntry, List.lookup_cons, beq_self_eq_true]
  | cons entry entries ih =>
    obtain ⟨first, held⟩ := entry
    rw [putEntry]
    split
    next => simp only [List.lookup_cons, beq_self_eq_true]
    next apart =>
      have differs : (name == first) = false := beq_false_of_ne (Ne.symm apart)
      simp only [List.lookup_cons, differs, ih]

theorem find_put_other (content : String) (apart : other ≠ name) :
    (registry.put name content).find? other = registry.find? other := by
  obtain ⟨entries⟩ := registry
  have differs : (other == name) = false := beq_false_of_ne apart
  simp only [find?, put]
  induction entries with
  | nil => simp only [putEntry, List.lookup_cons, differs, List.lookup_nil]
  | cons entry entries ih =>
    obtain ⟨first, held⟩ := entry
    rw [putEntry]
    split
    next same => simp only [List.lookup_cons, same, differs]
    next => simp only [List.lookup_cons, ih]

theorem mem_names_put : other ∈ (registry.put name content).names ↔ other = name ∨ other ∈ registry.names := by
  obtain ⟨entries⟩ := registry
  simp only [names, put]
  induction entries with
  | nil => simp [putEntry]
  | cons entry entries ih =>
    obtain ⟨first, held⟩ := entry
    rw [putEntry]
    split
    next same => simp [same]
    next =>
      rw [List.map_cons, List.map_cons, List.mem_cons, List.mem_cons, ih]
      exact or_left_comm

theorem nodup_names_put (distinct : registry.names.Nodup) : (registry.put name content).names.Nodup := by
  obtain ⟨entries⟩ := registry
  induction entries with
  | nil => simp [names, put, putEntry]
  | cons entry entries ih =>
    obtain ⟨first, held⟩ := entry
    obtain ⟨fresh, distinct⟩ := List.nodup_cons.mp distinct
    simp only [names, put, putEntry]
    split
    next same => exact List.nodup_cons.mpr ⟨same ▸ fresh, distinct⟩
    next apart =>
      have absent : first ∉ (Registry.put ⟨entries⟩ name content).names := by
        rw [mem_names_put]
        exact not_or.mpr ⟨apart, fresh⟩
      exact List.nodup_cons.mpr ⟨absent, ih distinct⟩

end

end Registry
end Stencil
