import Mathlib
import Stencil.Proofs.TokenRun

/-! What a tree asks of its environment. It looks up the paths that stand in it and nothing else, so environments that tell
the same of these paths cannot be told apart, whatever else they hold and in whichever layer they hold it. -/

namespace Stencil

namespace Node

mutual
def paths : Node → List String
  | .block children => pathsEach children
  | .constant _ _ | .stray _ => []
  | .variable path => [path]
  | .binary _ left right => left.paths ++ right.paths
  | .loop iterable _ body _ => iterable :: body.paths
  | .choice condition consequence alternative => condition.paths ++ (consequence.paths ++ alternative.paths)

def pathsEach : List Node → List String
  | [] => []
  | child :: children => child.paths ++ pathsEach children
end

end Node

namespace Environment
variable {environment environment' : Environment} {paths : List String}

def Agree (paths : List String) (environment environment' : Environment) : Prop :=
  ∀ path ∈ paths, environment.resolve path = environment'.resolve path

theorem agree_append {more : List String} : Agree (paths ++ more) environment environment' ↔
    Agree paths environment environment' ∧ Agree more environment environment' := List.forall_mem_append

/-- A layer hides the layers behind it from the paths that it leads on and from no others. -/
theorem resolve_cons (frame : Value) (frames : List Value) (path : String) : resolve ⟨frame :: frames⟩ path =
    if (frame.lookup path).isMissing then resolve ⟨frames⟩ path else frame.lookup path := by
  simp only [resolve, List.map_cons, List.find?_cons]
  cases (frame.lookup path).isMissing <;> rfl

theorem Agree.layer {frame frame' : Value} {frames frames' : List Value} (agree : Agree paths ⟨frames⟩ ⟨frames'⟩)
    (same : ∀ path ∈ paths, frame.lookup path = frame'.lookup path) :
    Agree paths ⟨frame :: frames⟩ ⟨frame' :: frames'⟩ := by
  intro path member
  rw [resolve_cons, resolve_cons, same path member, agree path member]

theorem Agree.bind (agree : Agree paths environment environment') (name : String) (value : Value) :
    Agree paths (environment.bind name value) (environment'.bind name value) :=
  Agree.layer agree fun _ _ => rfl

end Environment

namespace Node
open Environment (Agree)

mutual
theorem evaluate_agree {environment environment' : Environment} : (node : Node) →
    Agree node.paths environment environment' → node.evaluate environment = node.evaluate environment'
  | .block children, agree => by
    simp only [evaluate, evaluateEach_agree children agree]
  | .constant _ _, _ => rfl
  | .stray _, _ => rfl
  | .variable path, agree => by
    simp only [evaluate, agree path List.mem_cons_self]
  | .binary operator left right, agree => by
    obtain ⟨one, two⟩ := Environment.agree_append.mp agree
    cases operator <;> simp only [evaluate, evaluate_agree left one, evaluate_agree right two]
  | .loop iterable binding body position, agree => by
    have rounds (item : Value) : body.evaluate (environment.bind binding item) = body.evaluate (environment'.bind binding item) :=
      evaluate_agree body (Agree.bind (fun path member => agree path (List.mem_cons_of_mem _ member)) binding item)
    simp only [evaluate, agree iterable List.mem_cons_self, rounds]
  | .choice condition consequence alternative, agree => by
    obtain ⟨decides, either⟩ := Environment.agree_append.mp agree
    obtain ⟨one, two⟩ := Environment.agree_append.mp either
    simp only [evaluate, evaluate_agree condition decides, evaluate_agree consequence one, evaluate_agree alternative two]

theorem evaluateEach_agree {environment environment' : Environment} : (children : List Node) →
    Agree (pathsEach children) environment environment' →
      evaluateEach environment children = evaluateEach environment' children
  | [], _ => rfl
  | child :: children, agree => by
    obtain ⟨first, rest⟩ := Environment.agree_append.mp agree
    simp only [evaluateEach, evaluate_agree child first, evaluateEach_agree children rest]
end

end Node

namespace Path

theorem split_ne_nil (chars : List Char) : split chars ≠ [] := by
  induction chars with
  | nil => simp [split]
  | cons c rest ih =>
    rw [split]
    split
    · simp
    · simpa using ih

theorem segments_cons (path : String) : ∃ first more, segments path = first :: more := by
  obtain ⟨first, more, same⟩ := List.exists_cons_of_ne_nil (split_ne_nil path.toList)
  exact ⟨_, _, by rw [segments, same]; rfl⟩

end Path

namespace Value

/-- What is no collection of named values is like an empty one. -/
theorem lookup_of_not_dict {value : Value} (other : ∀ entries, value ≠ .dict entries) (path : String) :
    value.lookup path = (Value.dict []).lookup path := by
  obtain ⟨first, more, same⟩ := Path.segments_cons path
  have nothing : value.child first = .missing := by
    cases value with
    | dict entries => exact absurd rfl (other entries)
    | _ => rfl
  rw [lookup, lookup, same, follow, follow, List.foldl_cons, List.foldl_cons, nothing]
  rfl

/-- The key is the first segment of one of the paths. -/
def leads (paths : List String) (key : Value) : Bool :=
  paths.any fun path => (Path.segments path).head?.any fun name => isKey name key

def named (paths : List String) (entries : List (Value × Value)) : List (Value × Value) :=
  entries.filter fun entry => leads paths entry.1

theorem lookup_named {paths : List String} {path : String} (member : path ∈ paths) (entries : List (Value × Value)) :
    (Value.dict (named paths entries)).lookup path = (Value.dict entries).lookup path := by
  obtain ⟨first, more, same⟩ := Path.segments_cons path
  have begins (entry : Value × Value) : isKey first entry.1 = true → leads paths entry.1 = true :=
    fun found => List.any_eq_true.mpr ⟨path, member, by simpa [same] using found⟩
  have sought : (fun entry : Value × Value => decide (leads paths entry.1 = true ∧ isKey first entry.1 = true)) =
      fun entry => isKey first entry.1 := by
    funext entry
    simp only [and_iff_right_of_imp (begins entry), Bool.decide_eq_true]
  have held : (Value.dict (named paths entries)).child first = (Value.dict entries).child first := by
    simp only [child, named, List.find?_filter, sought]
  rw [lookup, lookup, same, follow, follow, List.foldl_cons, List.foldl_cons, held]

theorem lookup_of_named {paths : List String} {entries entries' : List (Value × Value)}
    (same : named paths entries = named paths entries') : ∀ path ∈ paths,
      (Value.dict entries).lookup path = (Value.dict entries').lookup path := by
  intro path member
  rw [← lookup_named member, same, lookup_named member]

end Value

namespace Template
open Environment (Agree forRender)

/-- What a tree comes to depends on what its environment tells of the paths in it. So it does not matter in which layers a
template finds what it mentions; what it does not mention does not matter; and data without names are like no data. -/
theorem render_depends_on_paths :
    (∀ (node : Node) (environment environment' : Environment), Agree node.paths environment environment' →
      node.evaluate environment = node.evaluate environment') ∧
    ∀ (content : String) (partials : Registry) (globals globals' : Value) (template template' : Template),
      (compile content partials globals).result = .ok template → (compile content partials globals').result = .ok template' →
      (∀ data data', Agree template.root.paths (forRender data globals) (forRender data' globals') →
        template.render data = template'.render data') ∧
      (∀ data environment, Agree template.root.paths (forRender data globals) environment →
        template.render data = template.root.evaluate environment) ∧
      (∀ inner inner' outer outer', globals = .dict outer → globals' = .dict outer' →
        Value.named template.root.paths inner = Value.named template.root.paths inner' →
        Value.named template.root.paths outer = Value.named template.root.paths outer' →
        template.render (.dict inner) = template'.render (.dict inner')) ∧
      ∀ data, (∀ entries, data ≠ .dict entries) → template.render data = template.render (.dict []) := by
  have congruent (node : Node) (environment environment' : Environment) (agree : Agree node.paths environment environment') :
      node.evaluate environment = node.evaluate environment' := Node.evaluate_agree node agree
  refine ⟨congruent, ?_⟩
  intro content partials globals globals' template template' compiled compiled'
  obtain ⟨children, parsed, rfl⟩ := compile_ok_iff.mp compiled
  obtain ⟨children', parsed', rfl⟩ := compile_ok_iff.mp compiled'
  cases parsed.symm.trans parsed'
  have layered {data data' : Value}
      (same : ∀ path ∈ (Node.block children).paths, data.lookup path = data'.lookup path)
      (same' : ∀ path ∈ (Node.block children).paths, globals.lookup path = globals'.lookup path) :
      Agree (Node.block children).paths (forRender data globals) (forRender data' globals') :=
    .layer (.layer (fun _ _ => rfl) same') same
  refine ⟨fun data data' => congruent _ _ _, fun data environment => congruent _ _ _, ?_, ?_⟩
  · rintro inner inner' outer outer' rfl rfl same same'
    exact congruent _ _ _ (layered (Value.lookup_of_named same) (Value.lookup_of_named same'))
  · intro data other
    exact congruent _ _ _ (.layer (fun _ _ => rfl) fun path _ => Value.lookup_of_not_dict other path)

/-- A loop whose binding hides the first part of the path that it goes over and shows. -/
def veiled : Node := .loop "a.b" "a" (.block [.variable "a.b"]) none

def inData : Environment := forRender (.dict [(.text "a", .dict [(.text "b", .list [.text "c"])]), (.text "d", .stream 0)]) (.dict [])

def inGlobals : Environment := forRender (.dict [(.text "a", .text "e")]) (.dict [(.text "a", .dict [(.text "b", .list [.text "c"])])])

theorem render_depends_on_paths_veiled :
    Agree veiled.paths inData inGlobals ∧ veiled.evaluate inData = veiled.evaluate inGlobals ∧
      ∃ template template', (compile "\x7b\x7bx\x7d\x7d" .empty (.dict [])).result = .ok template ∧
        (compile "\x7b\x7bx\x7d\x7d" .empty (.dict [(.text "x", .int 1)])).result = .ok template' ∧
        Agree template.root.paths (forRender (.dict [(.text "x", .int 1)]) (.dict []))
          (forRender .null (.dict [(.text "x", .int 1)])) ∧
        template.render (.dict [(.text "x", .int 1)]) = template'.render .null ∧
        Value.named template.root.paths [(.text "y", .null)] = Value.named template.root.paths [] ∧
        template.render (.dict [(.text "y", .null)]) = template.render (.dict []) ∧
        (∀ entries, Value.null ≠ .dict entries) ∧ template.render .null = template.render (.dict []) := by
  have agree : Agree veiled.paths inData inGlobals := by
    intro path member
    obtain rfl : path = "a.b" := by simpa [veiled, Node.paths, Node.pathsEach] using member
    cbv
  have parsed : (parse .empty [] rootName (Lexer.ofSource rootName "\x7b\x7bx\x7d\x7d")).1.result =
      .ok (.block [.variable "x"]) := by cbv
  have compiled (globals : Value) : (compile "\x7b\x7bx\x7d\x7d" .empty globals).result = .ok _ :=
    compile_ok_iff.mpr ⟨_, parsed, rfl⟩
  have agree' : Agree (Node.block [.variable "x"]).paths (forRender (.dict [(.text "x", .int 1)]) (.dict []))
      (forRender .null (.dict [(.text "x", .int 1)])) := by
    intro path member
    obtain rfl : path = "x" := by simpa [Node.paths, Node.pathsEach] using member
    cbv
  have unmentioned : Value.named (Node.block [.variable "x"]).paths [(.text "y", .null)] =
      Value.named (Node.block [.variable "x"]).paths [] := by cbv
  have nothing : ∀ entries, Value.null ≠ .dict entries := by
    intro entries same
    cases same
  obtain ⟨evaluated, rendered⟩ := render_depends_on_paths
  obtain ⟨split, _, _, unnamed⟩ := rendered _ _ _ _ _ _ (compiled (.dict [])) (compiled (.dict [(.text "x", .int 1)]))
  obtain ⟨_, _, extra, _⟩ := rendered _ _ _ _ _ _ (compiled (.dict [])) (compiled (.dict []))
  exact ⟨agree, evaluated _ _ _ agree, _, _, compiled _, compiled _, agree', split _ _ agree', unmentioned,
    extra _ _ _ _ rfl rfl unmentioned rfl, nothing, unnamed _ nothing⟩

end Template
end Stencil
