import Stencil.Proofs.TokenRun

/-! The balance of tags. A machine with a stack of open constructs reads tokens from left to right; of each token it sees
only whether it opens, divides or closes a construct. Parsing ends as the machine does: with a tree, at the first tag that
has no place, or with a construct that is left open. -/

namespace Stencil
open Diagnostic

namespace TagBalance

inductive Construct where
  | loop
  /-- An `if` block, and whether its `else` has come. -/
  | choice (divided : Bool)
  deriving DecidableEq, Repr

def Construct.keyword : Construct → String
  | .loop => "for"
  | .choice _ => "if"

structure Open where
  construct : Construct
  /-- The place of the tag that opened it. -/
  position : Option Position
  deriving DecidableEq, Repr

inductive Verdict where
  | balanced
  /-- The first tag that has no place here. -/
  | misplaced (imbalance : Imbalance) (position : Option Position)
  /-- The innermost construct that is open where the tokens run out. -/
  | unfinished (construct : Construct) (position : Option Position)
  deriving DecidableEq, Repr

/-- An `else` divides the construct on top if that is an undivided `if`; an `end` closes the construct on top. -/
def step (stack : List Open) (token : Token) : Except Imbalance (List Open) :=
  match token.form with
  | .loop _ _ => .ok (⟨.loop, token.position⟩ :: stack)
  | .choice _ => .ok (⟨.choice false, token.position⟩ :: stack)
  | .otherwise =>
    match stack with
    | [] => .error (.outside "else")
    | ⟨.choice false, start⟩ :: outer => .ok (⟨.choice true, start⟩ :: outer)
    | top :: _ => .error (.inside "else" top.construct.keyword ["end"])
  | .close =>
    match stack with
    | [] => .error (.outside "end")
    | _ :: outer => .ok outer
  | _ => .ok stack

def run (stack : List Open) : List Token → Verdict
  | [] =>
    match stack with
    | [] => .balanced
    | top :: _ => .unfinished top.construct top.position
  | token :: tokens =>
    match step stack token with
    | .ok next => run next tokens
    | .error imbalance => .misplaced imbalance token.position

def Verdict.Describes (source : String) (result : Except CompileFailure Node) : Verdict → Prop
  | .balanced => ∃ children, result = .ok (.block children)
  | .misplaced imbalance position => result = .error (.diagnosed ⟨.unbalanced imbalance, position, some source⟩)
  | .unfinished construct position =>
    result = .error (.diagnosed ⟨.unterminated construct.keyword, position, some source⟩)

/-- A token that says what it is, includes nothing and, if it opens an `if` block, has a sound condition. -/
def Plain (source : String) (token : Token) : Prop :=
  match token.form with
  | .bare | .inclusion _ => False
  | .choice pieces => ∃ condition, Condition.ofPieces ⟨token.position, source⟩ pieces = .ok condition
  | _ => True

/-- A token that says what it is, whose partial has a tree if it includes one, and whose condition is sound if it opens an
`if` block. -/
def Acceptable (inclusion : Inclusion) (source : String) (token : Token) : Prop :=
  match token.form with
  | .bare => False
  | .inclusion name => ∃ tree, (inclusion name token.position source).result = .ok tree
  | .choice pieces => ∃ condition, Condition.ofPieces ⟨token.position, source⟩ pieces = .ok condition
  | _ => True

theorem Plain.acceptable {source : String} {token : Token} (plain : Plain source token) (inclusion : Inclusion) :
    Acceptable inclusion source token := by
  unfold Plain at plain
  unfold Acceptable
  split at plain <;> simp_all

private def construct : Opening → Construct
  | .loop _ _ => .loop
  | .consequence _ => .choice false
  | .alternative _ _ => .choice true

def stackOf (draft : Draft) : List Open :=
  draft.enclosures.map fun enclosure => ⟨construct enclosure.opening, enclosure.position⟩

private theorem keyword_construct (opening : Opening) : (construct opening).keyword = opening.keyword := by
  cases opening <;> rfl

private def Agrees (source : String) (token : Token) (accepted : Except CompileFailure Draft) :
    Except Imbalance (List Open) → Prop
  | .ok stack => ∃ next, accepted = .ok next ∧ stackOf next = stack
  | .error imbalance => accepted = .error (.diagnosed ⟨.unbalanced imbalance, token.position, some source⟩)

private theorem otherwise_agrees (source : String) (draft : Draft) (token : Token) (tag : token.form = .otherwise) :
    Agrees source token (draft.otherwise token.position source).result (step (stackOf draft) token) := by
  obtain ⟨nodes, enclosures⟩ := draft
  rcases enclosures with _ | ⟨⟨opening, start, siblings⟩, outer⟩
  · simp only [step, tag]
    rfl
  · cases opening with
    | loop iterable binding =>
      simp only [step, tag]
      rfl
    | consequence condition =>
      simp only [step, tag]
      exact ⟨_, rfl, rfl⟩
    | alternative condition first =>
      simp only [step, tag]
      rfl

private theorem close_agrees (source : String) (draft : Draft) (token : Token) (tag : token.form = .close) :
    Agrees source token (draft.close token.position source).result (step (stackOf draft) token) := by
  obtain ⟨nodes, enclosures⟩ := draft
  rcases enclosures with _ | ⟨⟨opening, start, siblings⟩, outer⟩
  · simp only [step, tag]
    rfl
  · simp only [step, tag]
    exact ⟨_, rfl, rfl⟩

private theorem accept_agrees {inclusion : Inclusion} {source : String} (draft : Draft) {token : Token}
    (acceptable : Acceptable inclusion source token) :
    Agrees source token (draft.accept inclusion source token).result (step (stackOf draft) token) := by
  cases tag : token.form with
  | otherwise => simpa only [Draft.accept, tag] using otherwise_agrees source draft token tag
  | close => simpa only [Draft.accept, tag] using close_agrees source draft token tag
  | choice pieces =>
    simp only [Acceptable, tag] at acceptable
    obtain ⟨condition, sound⟩ := acceptable
    simp only [Draft.accept, step, tag, Compilation.result_bind, Compilation.result_ofExcept, sound]
    exact ⟨_, rfl, rfl⟩
  | inclusion name =>
    simp only [Acceptable, tag] at acceptable
    obtain ⟨tree, included⟩ := acceptable
    simp only [Draft.accept, step, tag, Compilation.result_bind, included]
    exact ⟨_, rfl, rfl⟩
  | bare => simp [Acceptable, tag] at acceptable
  | _ =>
    simp only [Draft.accept, step, tag]
    exact ⟨_, rfl, rfl⟩

private theorem finish_described (source : String) (draft : Draft) :
    (run (stackOf draft) []).Describes source (draft.finish source).result := by
  obtain ⟨nodes, enclosures⟩ := draft
  rcases enclosures with _ | ⟨⟨opening, start, siblings⟩, outer⟩
  · exact ⟨_, rfl⟩
  · simp only [run, stackOf, List.map_cons, Verdict.Describes, keyword_construct]
    rfl

theorem run_described {inclusion : Inclusion} {source : String} (draft : Draft) {tokens : List Token}
    (acceptable : ∀ token ∈ tokens, Acceptable inclusion source token) :
    (run (stackOf draft) tokens).Describes source
      (draft.acceptAll inclusion source tokens >>= fun last => (last.finish source).result) := by
  induction tokens generalizing draft with
  | nil => exact finish_described source draft
  | cons token tokens ih =>
    have agrees := accept_agrees draft (acceptable token (by simp))
    rw [Draft.acceptAll_cons]
    cases moved : step (stackOf draft) token with
    | ok stack =>
      rw [moved] at agrees
      obtain ⟨next, accepted, rfl⟩ := agrees
      simp only [run, moved, accepted]
      exact ih next fun later member => acceptable later (List.mem_cons_of_mem _ member)
    | error imbalance =>
      rw [moved] at agrees
      simp only [run, moved, Verdict.Describes]
      exact congrArg (fun result => (result >>= _) >>= _) agrees

/-- As long as nothing is wrong with tokens but their balance, and that is kept, a draft takes them. -/
theorem accepted_of_balanced {inclusion : Inclusion} {source : String} (draft : Draft) {front : List Token}
    (acceptable : ∀ token ∈ front, Acceptable inclusion source token) {back : List Token}
    (balanced : run (stackOf draft) (front ++ back) = .balanced) :
    ∃ next, draft.acceptAll inclusion source front = .ok next := by
  induction front generalizing draft with
  | nil => exact ⟨draft, rfl⟩
  | cons token front ih =>
    have agrees := accept_agrees draft (acceptable token (by simp))
    cases moved : step (stackOf draft) token with
    | ok stack =>
      rw [moved] at agrees
      obtain ⟨next, accepted, rfl⟩ := agrees
      simp only [List.cons_append, run, moved] at balanced
      rw [Draft.acceptAll_cons, accepted]
      exact ih next (fun later member => acceptable later (List.mem_cons_of_mem _ member)) balanced
    | error imbalance => simp [run, moved] at balanced

/-- Parsing tokens that include nothing and whose conditions are sound ends as the machine does. -/
theorem parse_described (registry : Registry) (chain : List String) (source : String) (tokens : List Token)
    (plain : ∀ token ∈ tokens, Plain source token) :
    (run [] tokens).Describes source (parse registry chain source tokens).1.result := by
  rw [result_parse_list]
  exact run_described .empty fun token member => (plain token member).acceptable _

private theorem name_condition (site : Condition.Site) :
    Condition.ofPieces site [⟨.identifier, "a", none⟩] = .ok (.variable "a") := by
  simp +decide [Condition.ofPieces, Condition.tests, Condition.test, Condition.valueOf, Condition.truthValue?, bind,
    Except.bind, pure, Except.pure]

/-- An `if` block in a loop, itself in the `else` part of an `if` block, that is divided twice. -/
def dividedTwice : List Token :=
  let condition := .choice [⟨.identifier, "a", none⟩]
  [⟨some ⟨1, 0⟩, condition⟩, ⟨some ⟨1, 10⟩, .otherwise⟩, ⟨some ⟨2, 0⟩, .loop "xs" "x"⟩, ⟨some ⟨2, 18⟩, condition⟩,
   ⟨some ⟨2, 28⟩, .otherwise⟩, ⟨some ⟨2, 38⟩, .text "b"⟩, ⟨some ⟨2, 39⟩, .otherwise⟩, ⟨some ⟨3, 0⟩, .close⟩]

theorem parse_described_dividedTwice : (∀ token ∈ dividedTwice, Plain rootName token) ∧
    (parse .empty [] rootName dividedTwice).1.result =
      .error (.diagnosed ⟨.unbalanced (.inside "else" "if" ["end"]), some ⟨2, 39⟩, some rootName⟩) := by
  have plain : ∀ token ∈ dividedTwice, Plain rootName token := by
    simp [dividedTwice, Plain, name_condition]
  exact ⟨plain, parse_described .empty [] rootName dividedTwice plain⟩

end TagBalance
end Stencil
