import Mathlib
import Stencil.Proofs.RunStages

/-! Where the partials of a run come from. A directory supplies its templates in order and the options supply theirs behind
them; a later one takes the place of an earlier one with the same name. The first that something is wrong with ends the
reading, also one whose place a later one would take. -/

namespace Stencil

namespace Command
open Text

/-- A directory, which has to be there, a template in one, or what is given by name and path. -/
inductive Supply where
  | directory (path : String)
  | entry (directory : Location) (name : String)
  | option (value : Option String)

def FileTree.Holds (tree : FileTree) (location : Location) (text : String) : Prop :=
  ∃ bytes content, tree.read location = .ok bytes ∧ Utf8.decode bytes = .ok content ∧
    text = String.ofList (Utf8.unifyLines content)

namespace FileTree.Holds
variable {tree : FileTree} {location : Location} {text other : String}

theorem unique (held : tree.Holds location text) (again : tree.Holds location other) : text = other := by
  obtain ⟨bytes, content, read, decoded, rfl⟩ := held
  obtain ⟨bytes', content', read', decoded', rfl⟩ := again
  cases read.symm.trans read'
  cases decoded.symm.trans decoded'
  rfl

theorem readable (held : tree.Holds location text) (shown : String) (problem : Problem) :
    ¬ tree.Unreadable location shown problem := by
  obtain ⟨bytes, content, read, decoded, -⟩ := held
  rintro (missed | ⟨read', undecoded⟩)
  · cases read.symm.trans missed
  · cases read.symm.trans read'
    cases decoded.symm.trans undecoded

end FileTree.Holds

namespace Supply

/-- The supply has a partial of this name in this file. A template goes by its name without the ending, save that the ending
alone is a name of its own. An option has its name before the first equals sign. -/
inductive Offers : Supply → String → Location → Prop
  | entry {directory : Location} {name stem : String} (split : name.toList = stem.toList ++ Job.templateEnding)
      (named : stem ≠ "") : Offers (.entry directory name) stem (directory.child name)
  | ending {directory : Location} {name : String} (alone : name.toList = Job.templateEnding) :
      Offers (.entry directory name) name (directory.child name)
  | option {option : String} {name path : List Char} (split : option.toList = name ++ '=' :: path) (named : name ≠ [])
      (first : '=' ∉ name) : Offers (.option (some option)) (String.ofList name) (.ofText (String.ofList path))

inductive Amiss (tree : FileTree) : Supply → Problem → Prop
  | noDirectory {path : String} (missed : tree.holdsDirectory (.ofText path) = .ok false) :
      Amiss tree (.directory path) (.noDirectory (Location.ofText path).text)
  | inaccessible {path : String} {error : AccessError} (missed : tree.holdsDirectory (.ofText path) = .error error) :
      Amiss tree (.directory path) (.inaccessible (Location.ofText path).text error)
  | entry {directory : Location} {name : String} {problem : Problem}
      (unread : tree.Unreadable (directory.child name) (directory.child name).text problem) :
      Amiss tree (.entry directory name) problem
  | option {value : Option String} {problem : Problem} (fault : PartialFault tree value problem) :
      Amiss tree (.option value) problem

/-- The last of the supplies that has a partial of this name has it in this file. -/
def OffersLast (supplies : List Supply) (name : String) (location : Location) : Prop :=
  ∃ before supply after, supplies = before ++ supply :: after ∧ supply.Offers name location ∧
    ∀ later ∈ after, ∀ elsewhere, ¬ later.Offers name elsewhere

end Supply

def Supply.ofDirectory (tree : FileTree) : Option (Option String) → List Supply
  | some (some path) =>
    if path = "" then []
    else .directory path :: (Job.templatesAmong (tree.names (.ofText path))).map (.entry (.ofText path))
  | _ => []

/-- What a command line has partials from: the directory that it gives last, and behind that its options in their order. -/
def Parsed.supplies (parsed : Parsed) (tree : FileTree) : List Supply :=
  Supply.ofDirectory tree (parsed.values .partialsDirectory).getLast? ++ (parsed.values .partialSource).map .option

namespace Location

/-- The stem of a template is what stands before the ending, unless nothing does. -/
theorem stem_template {name : String} {front : List Char} (split : name.toList = front ++ Job.templateEnding) :
    stem name = if front = [] then name else String.ofList front := by
  have reversed : name.toList.reverse = ['l', 'p', 't', '.'] ++ front.reverse := by
    rw [split, List.reverse_append]
    rfl
  have ending : (['l', 'p', 't', '.'] ++ front.reverse).takeWhile (· ≠ '.') = ['l', 'p', 't'] := by simp
  have start : ((['l', 'p', 't', '.'] ++ front.reverse).drop 4).reverse = front := by simp
  simp only [stem, reversed, ending, List.length_cons, List.length_nil, start]
  simp

end Location

namespace Supply
variable {tree : FileTree} {registry next : Registry} {supplies : List Supply} {supply : Supply} {name other : String}
  {location elsewhere : Location}

theorem Offers.unique (offers : supply.Offers name location) (again : supply.Offers other elsewhere) :
    name = other ∧ location = elsewhere := by
  cases offers with
  | entry split named =>
    cases again with
    | entry split' _ => exact ⟨String.toList_inj.mp (List.append_cancel_right (split.symm.trans split')), rfl⟩
    | ending alone => exact absurd (String.toList_eq_nil_iff.mp (List.append_left_eq_self.mp (split.symm.trans alone))) named
  | ending alone =>
    cases again with
    | entry split named => exact absurd (String.toList_eq_nil_iff.mp (List.append_left_eq_self.mp (split.symm.trans alone))) named
    | ending => exact ⟨rfl, rfl⟩
  | option split named first =>
    cases again with
    | option split' _ first' =>
      have parts := (Job.splitEquals_found first).symm.trans ((split.symm.trans split') ▸ Job.splitEquals_found first')
      simp only [Prod.mk.injEq, Option.some.injEq] at parts
      exact ⟨congrArg String.ofList parts.1, by rw [parts.2]⟩

theorem Offers.sound (offers : supply.Offers name location) {text : String} (held : tree.Holds location text)
    (problem : Problem) : ¬ supply.Amiss tree problem := by
  intro amiss
  cases offers with
  | entry =>
    cases amiss with
    | entry unread => exact held.readable _ _ unread
  | ending =>
    cases amiss with
    | entry unread => exact held.readable _ _ unread
  | @option option name path split named first =>
    cases amiss with
    | option fault =>
      have failed : (Job.readPartial .empty (some option)).outcome tree = .error problem :=
        Job.readPartial_fails_iff.mpr fault
      rw [Job.outcome_readPartial split first, if_neg named, bind_error_iff, Job.readText_fails_iff] at failed
      rcases failed with unread | ⟨content, -, made⟩
      · exact held.readable _ _ unread
      · cases made

def take (tree : FileTree) (registry : Registry) : Supply → Except Problem Registry
  | .directory path =>
    match tree.holdsDirectory (.ofText path) with
    | .error error => .error (.inaccessible (Location.ofText path).text error)
    | .ok false => .error (.noDirectory (Location.ofText path).text)
    | .ok true => .ok registry
  | .entry parent name => (Job.readEntry parent registry name).outcome tree
  | .option value => (Job.readPartial registry value).outcome tree

theorem take_fails_iff {problem : Problem} : supply.take tree registry = .error problem ↔ supply.Amiss tree problem := by
  cases supply with
  | directory path =>
    rw [take]
    constructor
    · intro failed
      split at failed
      next missed => cases failed; exact .inaccessible missed
      next missed => cases failed; exact .noDirectory missed
      next => cases failed
    · rintro (missed | missed) <;> rw [missed]
  | entry parent name =>
    refine Job.readEntry_fails_iff.trans ⟨Amiss.entry, ?_⟩
    rintro ⟨⟩
    assumption
  | option value =>
    refine Job.readPartial_fails_iff.trans ⟨Amiss.option, ?_⟩
    rintro ⟨⟩
    assumption

private theorem holds_of_readText {shown : String} {content : List Char}
    (read : (Job.readText location shown).outcome tree = .ok content) : tree.Holds location (String.ofList content) := by
  rw [Job.outcome_readText] at read
  split at read
  · cases read
  next bytes held =>
    split at read
    next decoded =>
      cases read
      exact ⟨bytes, _, held, decoded, rfl⟩
    · cases read

def Readable : Supply → Prop
  | .entry _ name => Job.templateEnding <:+ name.toList
  | _ => True

theorem take_ok (readable : supply.Readable) (taken : supply.take tree registry = .ok next) :
    (next = registry ∧ ∀ name location, ¬ supply.Offers name location) ∨
      ∃ name location text, supply.Offers name location ∧ tree.Holds location text ∧ next = registry.put name text := by
  cases supply with
  | directory path =>
    rw [take] at taken
    split at taken
    · cases taken
    · cases taken
    · cases taken
      exact .inl ⟨rfl, nofun⟩
  | entry parent name =>
    obtain ⟨front, split⟩ := readable
    rw [take, Job.readEntry, Job.outcome_bind (Job.reads_readText _ _) fun _ => Job.reads_pure _, bind_ok_iff] at taken
    obtain ⟨content, read, made⟩ := taken
    cases made
    rw [Location.stem_template split.symm]
    refine .inr ⟨_, parent.child name, _, ?_, holds_of_readText read, rfl⟩
    split
    next unnamed => exact .ending (by rw [← split, unnamed]; rfl)
    next named => exact .entry (by rw [String.toList_ofList, split]) (by simpa using named)
  | option value =>
    cases value with
    | none => cases taken
    | some option =>
      by_cases separated : '=' ∈ option.toList
      · obtain ⟨name, path, split, first⟩ := List.eq_append_cons_of_mem separated
        rw [take, Job.outcome_readPartial split first] at taken
        split at taken
        · cases taken
        next named =>
          obtain ⟨content, read, made⟩ := bind_ok_iff.mp taken
          cases made
          exact .inr ⟨_, _, _, .option split named first, holds_of_readText read, rfl⟩
      · rw [take, Job.readPartial, Job.splitEquals_absent separated] at taken
        cases taken

theorem offersLast_concat : OffersLast (supplies ++ [supply]) name location ↔ supply.Offers name location ∨
    (∀ elsewhere, ¬ supply.Offers name elsewhere) ∧ OffersLast supplies name location := by
  constructor
  · rintro ⟨before, giver, after, split, offers, last⟩
    rcases List.eq_nil_or_concat' after with rfl | ⟨others, final, rfl⟩
    · obtain ⟨-, same⟩ := List.append_inj' split rfl
      cases same
      exact .inl offers
    · rw [← List.cons_append, ← List.append_assoc] at split
      obtain ⟨rfl, same⟩ := List.append_inj' split rfl
      cases same
      exact .inr ⟨last supply (by simp), before, giver, others, rfl, offers, fun later inside => last later (by simp [inside])⟩
  · rintro (offers | ⟨clear, before, giver, after, rfl, offers, last⟩)
    · exact ⟨supplies, supply, [], rfl, offers, nofun⟩
    · refine ⟨before, giver, after ++ [supply], by simp, offers, ?_⟩
      simpa [or_imp, forall_and] using ⟨last, clear⟩

/-- The registry has the partials that are supplied, under each name the one that is supplied last. -/
structure Registered (tree : FileTree) (supplies : List Supply) (registry : Registry) : Prop where
  distinct : registry.names.Nodup
  names : ∀ name, name ∈ registry.names ↔ ∃ supply ∈ supplies, ∃ location, supply.Offers name location
  last : ∀ name text, registry.find? name = some text ↔
    ∃ location, OffersLast supplies name location ∧ tree.Holds location text

theorem Registered.idle (registered : Registered tree supplies registry)
    (clear : ∀ name location, ¬ supply.Offers name location) : Registered tree (supplies ++ [supply]) registry := by
  refine ⟨registered.distinct, fun name => ?_, fun name text => ?_⟩
  · simp [registered.names name, or_and_right, exists_or, clear]
  · simp [registered.last name text, offersLast_concat, clear]

theorem Registered.put {text : String} (registered : Registered tree supplies registry)
    (offers : supply.Offers name location) (held : tree.Holds location text) :
    Registered tree (supplies ++ [supply]) (registry.put name text) := by
  refine ⟨Registry.nodup_names_put registered.distinct, fun other => ?_, fun other text' => ?_⟩
  · have offered : (∃ place, supply.Offers other place) ↔ other = name := by
      refine ⟨fun ⟨_, again⟩ => (again.unique offers).1, ?_⟩
      rintro rfl
      exact ⟨location, offers⟩
    simp only [Registry.mem_names_put, registered.names other, List.mem_append, List.mem_singleton, or_and_right, exists_or,
      exists_eq_left, offered, or_comm]
  · simp only [offersLast_concat]
    by_cases same : other = name
    · subst same
      rw [Registry.find_put_self, Option.some.injEq]
      constructor
      · rintro rfl
        exact ⟨location, .inl offers, held⟩
      · rintro ⟨place, again | ⟨clear, -⟩, held'⟩
        · cases (offers.unique again).2
          exact held.unique held'
        · exact absurd offers (clear location)
    · have clear (place : Location) : ¬ supply.Offers other place := fun again => same (again.unique offers).1
      rw [Registry.find_put_other text same, registered.last]
      simp only [clear, false_or, not_false_eq_true, implies_true, true_and]

theorem registered_nothing (tree : FileTree) : Registered tree [] .empty := by
  refine ⟨List.nodup_nil, by simp [Registry.names, Registry.empty], fun name text => ⟨nofun, ?_⟩⟩
  rintro ⟨location, ⟨before, supply, after, split, -⟩, -⟩
  simp at split

theorem registered_takeAll (readable : ∀ supply ∈ supplies, supply.Readable)
    (taken : supplies.foldlM (take tree) .empty = .ok registry) : Registered tree supplies registry := by
  induction supplies using List.reverseRecOn generalizing registry with
  | nil =>
    cases taken
    exact registered_nothing tree
  | append_singleton supplies supply ih =>
    rw [List.foldlM_append] at taken
    obtain ⟨middle, before, taken⟩ := bind_ok_iff.mp taken
    rw [List.foldlM_cons] at taken
    obtain ⟨last, taken, ended⟩ := bind_ok_iff.mp taken
    cases ended
    simp only [List.forall_mem_append, List.forall_mem_singleton] at readable
    rcases take_ok readable.2 taken with ⟨rfl, clear⟩ | ⟨name, location, text, offers, held, rfl⟩
    · exact (ih readable.1 before).idle clear
    · exact (ih readable.1 before).put offers held

end Supply

theorem Parsed.readable_supplies (parsed : Parsed) (tree : FileTree) : ∀ supply ∈ parsed.supplies tree, supply.Readable := by
  refine List.forall_mem_append.mpr ⟨?_, ?_⟩
  · rcases (parsed.values .partialsDirectory).getLast? with _ | _ | path
    · nofun
    · nofun
    rw [Supply.ofDirectory]
    split
    · nofun
    refine List.forall_mem_cons.mpr ⟨trivial, List.forall_mem_map.mpr ?_⟩
    intro name inside
    simp only [Job.templatesAmong, List.mem_mergeSort, List.mem_filter, List.isSuffixOf_iff_suffix] at inside
    exact inside.2
  · exact List.forall_mem_map.mpr fun _ _ => trivial

private theorem takeAll_ofDirectory (parsed : Parsed) (tree : FileTree) :
    (Supply.ofDirectory tree (parsed.values .partialsDirectory).getLast?).foldlM (Supply.take tree) .empty =
      (Job.readGiven parsed.request).outcome tree := by
  have given : parsed.request.partialsDirectory = (parsed.values .partialsDirectory).getLast?.join.filter (· ≠ "") := rfl
  rw [Job.readGiven, given]
  rcases (parsed.values .partialsDirectory).getLast? with _ | _ | path
  · rfl
  · rfl
  by_cases empty : path = ""
  · subst empty
    rfl
  have filled : (some (some path)).join.filter (· ≠ "") = some path := by simp [empty]
  rw [filled, Supply.ofDirectory, if_neg empty, List.foldlM_cons, Supply.take, Job.outcome_readDirectory]
  cases tree.holdsDirectory (.ofText path) with
  | error error => rfl
  | ok holds =>
    cases holds with
    | false => rfl
    | true =>
      rw [Job.outcome_readEntries]
      exact List.foldlM_map

theorem Job.outcome_readPartials_supplies (parsed : Parsed) (tree : FileTree) :
    (readPartials parsed.request).outcome tree = (parsed.supplies tree).foldlM (Supply.take tree) .empty := by
  rw [outcome_readPartials, ← takeAll_ofDirectory, Parsed.supplies, List.foldlM_append]
  refine congrArg (_ >>= ·) (funext fun registry => ?_)
  rw [List.foldlM_map]
  rfl

/-- Reading the partials fails with what is amiss first among the supplies; if nothing is, it registers them. -/
theorem readPartials_registers (parsed : Parsed) (tree : FileTree) :
    (∀ problem, (Job.readPartials parsed.request).outcome tree = .error problem ↔
      ∃ supply, First (Supply.Amiss tree) (parsed.supplies tree) supply problem) ∧
    ((∀ supply ∈ parsed.supplies tree, ∀ problem, ¬ supply.Amiss tree problem) →
      ∃ registry, (Job.readPartials parsed.request).outcome tree = .ok registry ∧
        Supply.Registered tree (parsed.supplies tree) registry) := by
  have each (registry : Registry) (supply : Supply) (problem : Problem) :
    supply.take tree registry = .error problem ↔ supply.Amiss tree problem := Supply.take_fails_iff
  have covers := Covers.foldlM each (parsed.supplies tree) .empty
  rw [Job.outcome_readPartials_supplies]
  refine ⟨covers, fun clean => ?_⟩
  obtain ⟨registry, made⟩ := covers.succeeds clean
  exact ⟨registry, made, Supply.registered_takeAll (parsed.readable_supplies tree) made⟩

def crowded (row : UInt8) : FileTree :=
  ⟨[(["d", ".tpl"], [0x61]), (["d", ".tpl.tpl"], [0x62]), (["d", "row.tpl"], [row]), (["x"], [0x64])], []⟩

def overriding : Parsed := ⟨[(.partialsDirectory, some "d"), (.partialSource, some "row=x")], ["t.tpl"], []⟩

private theorem supplies_crowded (row : UInt8) : overriding.supplies (crowded row) =
    [.directory "d", .entry (.ofText "d") ".tpl", .entry (.ofText "d") ".tpl.tpl", .entry (.ofText "d") "row.tpl",
      .option (some "row=x")] := by
  have names : (crowded row).names (.ofText "d") = [".tpl", ".tpl.tpl", "row.tpl"] := by cbv
  have templates : Job.templatesAmong [".tpl", ".tpl.tpl", "row.tpl"] = [".tpl", ".tpl.tpl", "row.tpl"] :=
    List.mergeSort_of_pairwise (by decide)
  have given : (overriding.values .partialsDirectory).getLast? = some (some "d") := rfl
  have options : overriding.values .partialSource = [some "row=x"] := rfl
  rw [Parsed.supplies, given, options, Supply.ofDirectory, if_neg (by decide), names, templates]
  rfl

/-- Of two templates with the same stem the later one counts, and an option takes the place of a template. One that is
replaced has to be readable all the same. -/
theorem readPartials_registers_crowded :
    (∃ registry, (Job.readPartials overriding.request).outcome (crowded 0x63) = .ok registry ∧
      registry.find? ".tpl" = some "b" ∧ registry.find? "row" = some "d") ∧
    (Job.readPartials overriding.request).outcome (crowded 0xff) =
      .error (.undecodable ⟨.invalidStart, 0, 0xff, 1⟩) := by
  have directory (row : UInt8) (problem : Problem) : ¬ (Supply.directory "d").Amiss (crowded row) problem := by
    have there : (crowded row).holdsDirectory (.ofText "d") = .ok true := by cbv
    rintro (missed | missed) <;> cases there.symm.trans missed
  have ending : (Supply.entry (.ofText "d") ".tpl").Offers ".tpl" ((Location.ofText "d").child ".tpl") := .ending (by decide)
  have doubled : (Supply.entry (.ofText "d") ".tpl.tpl").Offers ".tpl" ((Location.ofText "d").child ".tpl.tpl") :=
    .entry (by decide) (by decide)
  have first (row : UInt8) : (crowded row).Holds ((Location.ofText "d").child ".tpl") "a" :=
    ⟨[0x61], ['a'], by cbv, by cbv, by cbv⟩
  have second (row : UInt8) : (crowded row).Holds ((Location.ofText "d").child ".tpl.tpl") "b" :=
    ⟨[0x62], ['b'], by cbv, by cbv, by cbv⟩
  constructor
  · have template : (Supply.entry (.ofText "d") "row.tpl").Offers "row" ((Location.ofText "d").child "row.tpl") :=
      .entry (by decide) (by decide)
    have given : (Supply.option (some "row=x")).Offers "row" (.ofText "x") :=
      .option (show _ = ['r', 'o', 'w'] ++ '=' :: ['x'] from rfl) (by decide) (by decide)
    have third : (crowded 0x63).Holds ((Location.ofText "d").child "row.tpl") "c" := ⟨[0x63], ['c'], by cbv, by cbv, by cbv⟩
    have fourth : (crowded 0x63).Holds (.ofText "x") "d" := ⟨[0x64], ['d'], by cbv, by cbv, by cbv⟩
    have clean : ∀ supply ∈ overriding.supplies (crowded 0x63), ∀ problem, ¬ supply.Amiss (crowded 0x63) problem := by
      rw [supplies_crowded]
      simpa using ⟨directory 0x63, ending.sound (first 0x63), doubled.sound (second 0x63), template.sound third,
        given.sound fourth⟩
    obtain ⟨registry, made, registered⟩ := (readPartials_registers overriding (crowded 0x63)).2 clean
    rw [supplies_crowded] at registered
    refine ⟨registry, made, (registered.last _ _).mpr ⟨_, ⟨[_, _], _, [_, _], rfl, doubled, ?_⟩, second 0x63⟩,
      (registered.last _ _).mpr ⟨_, ⟨[_, _, _, _], _, [], rfl, given, by simp⟩, fourth⟩⟩
    simp only [List.mem_cons, List.not_mem_nil, or_false, forall_eq_or_imp, forall_eq]
    exact ⟨fun elsewhere again => absurd (template.unique again).1 (by decide),
      fun elsewhere again => absurd (given.unique again).1 (by decide)⟩
  · refine ((readPartials_registers overriding (crowded 0xff)).1 _).mpr ⟨.entry (.ofText "d") "row.tpl", ?_⟩
    rw [supplies_crowded]
    refine ⟨[.directory "d", .entry (.ofText "d") ".tpl", .entry (.ofText "d") ".tpl.tpl"], _, rfl, ?_, ?_⟩
    · simpa using ⟨directory 0xff, ending.sound (first 0xff), doubled.sound (second 0xff)⟩
    · exact .entry (.broken (by cbv) (by cbv))

end Command
end Stencil
