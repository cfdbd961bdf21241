import Mathlib
import Stencil.Proofs.BindingScopes

/-! Paths in parts. A path that is put together at a point leads where its second part leads from where its first part leads.
So a binding answers for its own name and for the paths that lead on from its value, and for no others: a path that starts
with the name and then leads nowhere falls through to the layers behind. -/

namespace Stencil

namespace Path

theorem split_append (first rest : List Char) : split (first ++ '.' :: rest) = split first ++ split rest := by
  induction first with
  | nil => simp [split]
  | cons c more ih =>
    obtain ⟨segment, segments, same⟩ := List.exists_cons_of_ne_nil (split_ne_nil more)
    by_cases point : c = '.'
    · simp [split, point, ih]
    · simp [split, point, ih, same]

theorem segments_append (first rest : String) : segments (first ++ "." ++ rest) = segments first ++ segments rest := by
  have chars : (first ++ "." ++ rest).toList = first.toList ++ '.' :: rest.toList := by simp
  rw [segments, chars, split_append, List.map_append]
  rfl

theorem split_eq_cons {chars first : List Char} {more : List (List Char)} (parts : split chars = first :: more) :
    '.' ∉ first ∧ (more = [] ∧ chars = first ∨ ∃ rest, chars = first ++ '.' :: rest ∧ split rest = more) := by
  induction chars generalizing first with
  | nil =>
    obtain ⟨rfl, rfl⟩ := List.cons.inj parts
    simp
  | cons c chars ih =>
    by_cases point : c = '.'
    · subst point
      obtain ⟨rfl, rfl⟩ := List.cons.inj parts
      exact ⟨List.not_mem_nil, .inr ⟨chars, rfl, rfl⟩⟩
    · obtain ⟨segment, segments, same⟩ := List.exists_cons_of_ne_nil (split_ne_nil chars)
      rw [split, if_neg point, same] at parts
      obtain ⟨rfl, rfl⟩ := List.cons.inj parts
      obtain ⟨free, shape⟩ := ih same
      refine ⟨by simp [Ne.symm point, free], ?_⟩
      rcases shape with ⟨none, whole⟩ | ⟨rest, whole, behind⟩
      · exact .inl ⟨none, by rw [whole]⟩
      · exact .inr ⟨rest, by rw [whole]; rfl, behind⟩

/-- A path that begins with a name is that name, or the name, a point and another path. -/
theorem Begins.cases {name path : String} (begins : Begins name path) :
    '.' ∉ name.toList ∧ (path = name ∨ ∃ rest, path = name ++ "." ++ rest) := by
  obtain ⟨first, more, same⟩ := List.exists_cons_of_ne_nil (split_ne_nil path.toList)
  have named : String.ofList first = name := by simpa [Begins, segments, same] using begins
  subst named
  obtain ⟨free, shape⟩ := split_eq_cons same
  refine ⟨by simpa using free, ?_⟩
  rcases shape with ⟨_, whole⟩ | ⟨rest, whole, _⟩
  · exact .inl (String.toList_inj.mp (by simpa using whole))
  · exact .inr ⟨String.ofList rest, String.toList_inj.mp (by simpa using whole)⟩

end Path

namespace Value

theorem isMissing_iff {value : Value} : value.isMissing = true ↔ value = .missing := by
  cases value <;> simp [isMissing]

theorem lookup_append (data : Value) (first rest : String) :
    data.lookup (first ++ "." ++ rest) = (data.lookup first).lookup rest := by
  rw [lookup, Path.segments_append, follow, List.foldl_append]
  rfl

theorem lookup_missing (path : String) : lookup .missing path = .missing := follow_missing _

theorem lookup_binding_append {name : String} (free : '.' ∉ name.toList) (value : Value) (rest : String) :
    (Value.dict [(.text name, value)]).lookup (name ++ "." ++ rest) = value.lookup rest := by
  rw [lookup_append, lookup_binding_self free]

end Value

namespace Environment
variable {environment : Environment} {name path : String} {value : Value}

theorem resolve_bind_of_missing (nothing : (Value.dict [(.text name, value)]).lookup path = .missing) :
    (environment.bind name value).resolve path = environment.resolve path := by
  rw [bind, resolve_cons, nothing]
  rfl

theorem resolve_bind_append (free : '.' ∉ name.toList) {rest : String} (found : (value.lookup rest).isMissing = false) :
    (environment.bind name value).resolve (name ++ "." ++ rest) = value.lookup rest := by
  rw [bind, resolve_cons, Value.lookup_binding_append free, found]
  rfl

/-- A binding that answers neither for the whole path nor for its beginning does not answer for it. -/
theorem resolve_bind_falls_through (other : '.' ∉ name.toList → path ≠ name)
    (ends : ∀ rest, '.' ∉ name.toList → path = name ++ "." ++ rest → value.lookup rest = .missing) :
    (environment.bind name value).resolve path = environment.resolve path := by
  by_cases begins : Path.Begins name path
  · obtain ⟨free, rfl | ⟨rest, rfl⟩⟩ := begins.cases
    · exact absurd rfl (other free)
    · exact resolve_bind_of_missing ((Value.lookup_binding_append free value rest).trans (ends rest free rfl))
  · exact resolve_bind_other begins environment value

/-- Looking up is compositional, and a binding without points in its name hides what leads on from its value. Everything else
is as without it, and behind it stands what it was put in front of. -/
theorem paths_compose :
    (∀ (data : Value) (first rest : String), data.lookup (first ++ "." ++ rest) =
      if (data.lookup first).isMissing then .missing else (data.lookup first).lookup rest) ∧
    ∀ (environment : Environment) (name : String) (value : Value) (path : String),
      ('.' ∉ name.toList → path = name → value.isMissing = false → (environment.bind name value).resolve path = value) ∧
      (∀ rest, '.' ∉ name.toList → path = name ++ "." ++ rest → (value.lookup rest).isMissing = false →
        (environment.bind name value).resolve path = value.lookup rest) ∧
      (¬ ('.' ∉ name.toList ∧ path = name) →
        (¬ ∃ rest, '.' ∉ name.toList ∧ path = name ++ "." ++ rest ∧ (value.lookup rest).isMissing = false) →
        (environment.bind name value).resolve path = environment.resolve path) ∧
      ('.' ∈ name.toList → (environment.bind name value).resolve path = environment.resolve path) ∧
      (Environment.mk (environment.bind name value).frames.tail).resolve path = environment.resolve path := by
  refine ⟨?_, ?_⟩
  · intro data first rest
    rw [Value.lookup_append]
    split
    next missing => rw [Value.isMissing_iff.mp missing, Value.lookup_missing]
    next => rfl
  · intro environment name value path
    refine ⟨?_, ?_, ?_, ?_, rfl⟩
    · rintro free rfl present
      exact resolve_bind_self free present environment
    · rintro rest free rfl found
      exact resolve_bind_append free found
    · intro other ends
      refine resolve_bind_falls_through (fun free same => other ⟨free, same⟩) fun rest free same => ?_
      by_contra found
      exact ends ⟨rest, free, same, Bool.eq_false_iff.mpr fun missing => found (Value.isMissing_iff.mp missing)⟩
    · intro dotted
      exact resolve_bind_falls_through (absurd dotted) fun _ free => absurd dotted free

/-- The data behind a binding that hides a part of it. -/
def behind : Environment := ⟨[.dict [(.text "a", .dict [(.text "b", .int 1), (.text "", .int 2)])]]⟩

/-- The binding has an empty segment of its own and none named `b`. -/
def veil : Value := .dict [(.text "", .dict [(.text "c", .null)])]

theorem paths_compose_veil :
    veil.isMissing = false ∧ '.' ∉ "a".toList ∧
      (behind.bind "a" veil).resolve "a" = veil ∧
      (behind.bind "a" veil).resolve "a..c" = .null ∧
      (behind.bind "a" veil).resolve "a.b" = .int 1 ∧
      (behind.bind "a.b" veil).resolve "a.b" = .int 1 := by
  have present : veil.isMissing = false := rfl
  have free : '.' ∉ "a".toList := by decide
  obtain ⟨_, binds⟩ := paths_compose
  obtain ⟨whole, _⟩ := binds behind "a" veil "a"
  obtain ⟨_, further, _⟩ := binds behind "a" veil "a..c"
  obtain ⟨_, _, through, _⟩ := binds behind "a" veil "a.b"
  obtain ⟨_, _, _, dotted, _⟩ := binds behind "a.b" veil "a.b"
  have found : veil.lookup ".c" = .null := by cbv
  have held : behind.resolve "a.b" = .int 1 := by cbv
  refine ⟨present, free, whole free rfl present, ?_, ?_, ?_⟩
  · exact (further ".c" free rfl (by rw [found]; rfl)).trans found
  · refine (through (by decide) ?_).trans held
    rintro ⟨rest, _, same, leads⟩
    obtain rfl : rest = "b" := String.toList_inj.mp (by simpa using (congrArg String.toList same).symm)
    have nothing : veil.lookup "b" = .missing := by cbv
    rw [nothing] at leads
    cases leads
  · exact (dotted (by decide)).trans held

end Environment
end Stencil
