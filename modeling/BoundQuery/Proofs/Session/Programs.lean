import BoundQuery.Proofs.Draft.Runs
import BoundQuery.Session

/-!
# Programs

A program takes its drafts and its styles from one session and sets the dialect of the session as
it goes. What a draft or a style has taken from the session stays with it. A scope leaves the
session as it was, whatever happened inside, and a program cannot open a scope inside another.
-/

set_option autoImplicit false

namespace BoundQuery

/-- What a program has at hand. Drafts and styles are numbered in the order of their making. -/
structure Program where
  session : Session := .start
  drafts : List Draft := []
  styles : List Style := []

namespace Program

inductive Step where
  | setDialect (dialect : Dialect)
  | enter (dialect : Dialect)
  | leave
  | readDialect
  | newDraft
  | newSelection (columns : List String)
  | newStyle
  | edit (number : Nat) (change : Draft.Edit)
  | writeDraft (number : Nat)
  | writeDraftIn (number : Nat) (dialect : Dialect)
  | writeQuery (number : Nat) (query : Query)

inductive Answer where
  | done
  | dialect (dialect : Dialect)
  | noted (notices : List Notice)
  | written (result : Logged (Except StatementError Statement))

/-- One step of a program, if it can be made: a second scope cannot be opened, and none can be
closed where none is open. With a number that was not given yet a step does nothing. -/
def step (program : Program) : Step → Option (Answer × Program)
  | .setDialect dialect =>
    let (before, session) := program.session.setDialect dialect
    some (.dialect before, { program with session })
  | .enter dialect =>
    (program.session.enter? dialect).map fun session => (.done, { program with session })
  | .leave =>
    if program.session.saved.isSome then
      some (.done, { program with session := program.session.leave })
    else none
  | .readDialect => some (.dialect program.session.dialect, program)
  | .newDraft => some (.done, { program with drafts := program.drafts ++ [program.session.draft] })
  | .newSelection columns =>
    some (.done, { program with drafts := program.drafts ++ [program.session.select columns] })
  | .newStyle =>
    some (.done, { program with styles := program.styles ++ [program.session.dialect.style] })
  | .edit number change =>
    match program.drafts[number]? with
    | some draft =>
      let edited := draft.edit change
      some (.noted edited.log, { program with drafts := program.drafts.set number edited.value })
    | none => some (.done, program)
  | .writeDraft number =>
    some ((program.drafts[number]?).elim .done fun draft => .written draft.write, program)
  | .writeDraftIn number dialect =>
    some ((program.drafts[number]?).elim .done fun draft => .written (draft.writeIn dialect),
      program)
  | .writeQuery number query =>
    some ((program.styles[number]?).elim .done fun style => .written (style.write query), program)

def run (program : Program) : List Step → Option Program
  | [] => some program
  | first :: rest => (program.step first).bind fun result => result.2.run rest

def answer? (program : Program) (step : Step) : Option Answer :=
  (program.step step).map Prod.fst

namespace Step

def opensScope : Step → Bool
  | .enter _ => true
  | _ => false

def setsDialect : Step → Bool
  | .setDialect _ => true
  | _ => false

/-- The edit of a step to the draft with a number. -/
def edit? (number : Nat) : Step → Option Draft.Edit
  | .edit other change => if other = number then some change else none
  | _ => none

/-- The draft that a step makes under a dialect. -/
def draft? (dialect : Dialect) : Step → Option Draft
  | .newDraft => some { dialect }
  | .newSelection columns => some { dialect, query := Query.empty.select columns }
  | _ => none

def style? (dialect : Dialect) : Step → Option Style
  | .newStyle => some dialect.style
  | _ => none

theorem dialect_of_draft? {dialect : Dialect} {step : Step} {draft : Draft}
    (makes : step.draft? dialect = some draft) : draft.dialect = dialect := by
  cases step with
  | newDraft | newSelection _ =>
    cases makes
    rfl
  | _ => cases makes

theorem eq_of_style? {dialect : Dialect} {step : Step} {style : Style}
    (makes : step.style? dialect = some style) : style = dialect.style := by
  cases step with
  | newStyle =>
    cases makes
    rfl
  | _ => cases makes

end Step

def editsOf (number : Nat) (steps : List Step) : List Draft.Edit :=
  steps.filterMap (Step.edit? number)

end Program

namespace Session

open Program

/-- What a step of a program does to the session. -/
def step (session : Session) : Step → Option Session
  | .setDialect dialect => some (session.setDialect dialect).2
  | .enter dialect => session.enter? dialect
  | .leave => if session.saved.isSome then some session.leave else none
  | _ => some session

def run (session : Session) : List Step → Option Session
  | [] => some session
  | first :: rest => (session.step first).bind fun next => next.run rest

/-- A scope is opened where none is open and left where one is. All other steps can always be
made. -/
theorem isSome_step_iff (session : Session) (first : Step) :
    (session.step first).isSome ↔
      (first.opensScope → session.saved = none) ∧ (first = .leave → session.saved ≠ none) := by
  cases first with
  | enter dialect => cases saved : session.saved <;> simp [step, enter?, Step.opensScope, saved]
  | leave => cases saved : session.saved <;> simp [step, Step.opensScope, saved]
  | _ => simp [step, Step.opensScope]

theorem dialect_step {session next : Session} {first : Step}
    (stepped : session.step first = some next) {dialect : Dialect}
    (sets : first = .setDialect dialect ∨ first = .enter dialect) : next.dialect = dialect := by
  rcases sets with rfl | rfl
  · cases stepped
    exact dialect_setDialect session dialect
  · obtain ⟨-, opened⟩ := Option.ite_none_left_eq_some.mp stepped
    cases opened
    exact dialect_setDialect session dialect

/-- A scope that is open stays open until it is left, and cannot be opened again. Only the dialect
saved for it is left of the session then. -/
theorem run_scope {session : Session} {dialect : Dialect} (opened : session.saved = some dialect)
    {inside : List Step} (held : .leave ∉ inside) (after : List Step) :
    session.run (inside ++ .leave :: after) =
      if inside.any Step.opensScope then none
      else Session.run { code := dialect.code, saved := none } after := by
  induction inside generalizing session with
  | nil => simp [run, step, opened, leave_of_saved opened]
  | cons first rest ih =>
    obtain ⟨firstStays, restHeld⟩ := not_or.mp (mt List.mem_cons.mpr held)
    cases first with
    | enter other => simp [run, step, enter?, opened, Step.opensScope]
    | leave => exact absurd rfl firstStays
    | setDialect other =>
      have stillOpened : (session.setDialect other).2.saved = some dialect := opened
      simpa [run, step, Step.opensScope] using ih stillOpened restHeld
    | _ => simpa [run, step, Step.opensScope] using ih opened restHeld

/-- After a scope the session is what it was before, whatever was set inside. -/
theorem run_enter (session : Session) (dialect : Dialect) {inside : List Step}
    (held : .leave ∉ inside) (after : List Step) :
    session.run (.enter dialect :: inside ++ .leave :: after) =
      if session.saved.isSome || inside.any Step.opensScope then none
      else Session.run { code := session.dialect.code, saved := none } after := by
  cases saved : session.saved with
  | some other => simp [run, step, enter?, saved]
  | none =>
    have opened : session.enter? dialect =
        some { code := dialect.code, saved := some session.dialect } := by
      simp [enter?, saved, setDialect]
    rw [List.cons_append, run, step, opened, Option.bind_some, run_scope rfl held]
    rfl

end Session

namespace Program

/-- Every draft after the edit that a step means for it. -/
def edited (drafts : List Draft) (step : Step) : List Draft :=
  drafts.mapIdx fun number draft => draft.after (step.edit? number).toList

/-- A program after a step that leaves it with a session. -/
def advance (program : Program) (first : Step) (session : Session) : Program where
  session
  drafts := edited program.drafts first ++ (first.draft? program.session.dialect).toList
  styles := program.styles ++ (first.style? program.session.dialect).toList

theorem edited_of_idle {step : Step} (idle : ∀ number, step.edit? number = none)
    (drafts : List Draft) : edited drafts step = drafts := by
  rw [edited, List.mapIdx_eq_iff]
  intro number
  simp [idle]

theorem edited_edit (drafts : List Draft) (number : Nat) (change : Draft.Edit) :
    edited drafts (.edit number change) =
      match drafts[number]? with
      | some draft => drafts.set number (draft.edit change).value
      | none => drafts := by
  rw [edited, List.mapIdx_eq_iff]
  intro other
  by_cases same : number = other
  · subst same
    cases found : drafts[number]? with
    | none => simp [found]
    | some draft => simp [Step.edit?, found, Draft.value_edit, List.getElem?_set_self']
  · cases drafts[number]? <;> simp [Step.edit?, same]

theorem advance_of_idle {step : Step} (idle : ∀ number, step.edit? number = none)
    (program : Program) (session : Session) :
    program.advance step session =
      { session
        drafts := program.drafts ++ (step.draft? program.session.dialect).toList
        styles := program.styles ++ (step.style? program.session.dialect).toList } := by
  rw [advance, edited_of_idle idle]

/-- Whether a step can be made is up to the session. It edits the draft that it names, and what it
makes takes nothing but the dialect of the session. -/
theorem step_eq (program : Program) (first : Step) :
    (program.step first).map Prod.snd =
      (program.session.step first).map (program.advance first) := by
  -- only an edit touches a draft that is there; the other steps at most append one
  cases first with
  | edit number change =>
    cases found : program.drafts[number]? <;>
      simp [step, Session.step, advance, edited_edit, Step.draft?, Step.style?, found]
  | enter dialect =>
    simp only [step, Session.step, Option.map_map]
    congr 1
    funext session
    rw [Function.comp_apply, advance_of_idle fun _ => rfl]
    simp [Step.draft?, Step.style?]
  | leave =>
    simp only [step, Session.step]
    split
    · rw [Option.map_some, Option.map_some, advance_of_idle fun _ => rfl]
      simp [Step.draft?, Step.style?]
    · rfl
  | _ =>
    simp only [step, Session.step, Option.map_some]
    rw [advance_of_idle fun _ => rfl]
    simp [Step.draft?, Step.style?, Session.draft, Session.select, Draft.withQuery]

theorem isSome_answer? (program : Program) (first : Step) :
    (program.answer? first).isSome = (program.session.step first).isSome := by
  have outcome := congrArg Option.isSome (step_eq program first)
  rw [Option.isSome_map, Option.isSome_map] at outcome
  rw [answer?, Option.isSome_map, outcome]

theorem run_cons (program : Program) (first : Step) (rest : List Step) :
    program.run (first :: rest) =
      (program.session.step first).bind fun session =>
        (program.advance first session).run rest := by
  calc program.run (first :: rest)
      = ((program.step first).map Prod.snd).bind fun next => next.run rest := by
        rw [run, Option.bind_map]
        rfl
    _ = ((program.session.step first).map (program.advance first)).bind fun next =>
          next.run rest := by
        rw [step_eq]
    _ = (program.session.step first).bind fun session =>
          (program.advance first session).run rest := by
        rw [Option.bind_map]
        rfl

/-- The session of a program does not depend on its drafts and styles. -/
theorem session_run (program : Program) (steps : List Step) :
    (program.run steps).map session = program.session.run steps := by
  induction steps generalizing program with
  | nil => rfl
  | cons first rest ih =>
    rw [run_cons, Session.run, Option.map_bind]
    congr 1
    funext session
    exact ih _

theorem editsOf_cons (number : Nat) (first : Step) (rest : List Step) :
    editsOf number (first :: rest) = (first.edit? number).toList ++ editsOf number rest := by
  cases own : first.edit? number <;> simp [editsOf, own]

private theorem getElem?_append_of_eq_some {α : Type} {list : List α} {number : Nat} {value : α}
    (found : list[number]? = some value) (more : List α) :
    (list ++ more)[number]? = some value := by
  obtain ⟨given, -⟩ := List.getElem?_eq_some_iff.mp found
  rw [List.getElem?_append_left given, found]

section Run

variable {program final : Program} {steps : List Step} (ran : program.run steps = some final)
  {number : Nat}

include ran

/-- Of all that a run does a draft is touched by its own edits alone. -/
theorem drafts_run {draft : Draft} (made : program.drafts[number]? = some draft) :
    final.drafts[number]? = some (draft.after (editsOf number steps)) := by
  induction steps generalizing program draft with
  | nil =>
    cases ran
    rw [made, editsOf, List.filterMap_nil, Draft.after_nil]
  | cons first rest ih =>
    rw [run_cons] at ran
    obtain ⟨session, -, continued⟩ := Option.bind_eq_some_iff.mp ran
    have edited : (edited program.drafts first)[number]? =
        some (draft.after (first.edit? number).toList) := by
      rw [edited, List.getElem?_mapIdx, made, Option.map_some]
    rw [editsOf_cons, Draft.after_append]
    exact ih continued (getElem?_append_of_eq_some edited _)

theorem styles_run {style : Style} (made : program.styles[number]? = some style) :
    final.styles[number]? = some style := by
  induction steps generalizing program with
  | nil =>
    cases ran
    exact made
  | cons first rest ih =>
    rw [run_cons] at ran
    obtain ⟨session, -, continued⟩ := Option.bind_eq_some_iff.mp ran
    exact ih continued (getElem?_append_of_eq_some made _)

end Run

section Making

variable {program final : Program} {first : Step} {later : List Step}
  (ran : program.run (first :: later) = some final)

include ran

/-- A draft starts with the dialect of the session. Where the session goes from there does not
matter to it. -/
theorem drafts_making {made : Draft} (makes : first.draft? program.session.dialect = some made) :
    final.drafts[program.drafts.length]? =
      some (made.after (editsOf program.drafts.length later)) := by
  rw [run_cons] at ran
  obtain ⟨session, -, continued⟩ := Option.bind_eq_some_iff.mp ran
  apply drafts_run continued
  simp [advance, edited, makes]

theorem styles_making {made : Style} (makes : first.style? program.session.dialect = some made) :
    final.styles[program.styles.length]? = some made := by
  rw [run_cons] at ran
  obtain ⟨session, -, continued⟩ := Option.bind_eq_some_iff.mp ran
  apply styles_run continued
  simp [advance, makes]

end Making

/-- What a program reads at the end of a run is up to the session alone. -/
theorem read_run (program : Program) (steps : List Step) :
    (program.run steps).bind (·.answer? .readDialect) =
      (program.session.run steps).map fun session => .dialect session.dialect := by
  rw [← session_run]
  cases program.run steps <;> rfl

/-- Runs that differ in what they set inside a scope go the same way from its end on. -/
theorem session_run_of_filter_eq (session : Session) (dialect : Dialect)
    {inside others : List Step} (held : .leave ∉ inside)
    (same : others.filter (fun step => !step.setsDialect) =
      inside.filter fun step => !step.setsDialect) (after : List Step) :
    session.run (.enter dialect :: others ++ .leave :: after) =
      session.run (.enter dialect :: inside ++ .leave :: after) := by
  have othersHeld : .leave ∉ others := by
    intro left
    have kept : .leave ∈ others.filter fun step => !step.setsDialect :=
      List.mem_filter.mpr ⟨left, rfl⟩
    rw [same] at kept
    exact held (List.mem_filter.mp kept).1
  have opens (steps : List Step) : steps.any Step.opensScope =
      (steps.filter fun step => !step.setsDialect).any Step.opensScope := by
    rw [List.any_filter]
    congr 1
    funext step
    cases step <;> rfl
  rw [Session.run_enter session dialect held, Session.run_enter session dialect othersHeld,
    opens inside, opens others, same]

/-- Both steps that set a dialect make it the one that is read next. -/
theorem dialect_set {program next : Program} {first : Step} (ran : program.run [first] = some next)
    {dialect : Dialect} (sets : first = .setDialect dialect ∨ first = .enter dialect) :
    next.session.dialect = dialect := by
  rw [run_cons] at ran
  obtain ⟨session, stepped, continued⟩ := Option.bind_eq_some_iff.mp ran
  cases continued
  exact Session.dialect_step stepped sets

theorem read_left (program : Program) (dialect : Dialect) {inside : List Step}
    (held : .leave ∉ inside) :
    (program.run (.enter dialect :: inside ++ [.leave])).bind (·.answer? .readDialect) =
      if program.session.saved.isSome || inside.any Step.opensScope then none
      else some (.dialect program.session.dialect) := by
  rw [read_run, Session.run_enter _ _ held, apply_ite (Option.map _)]
  simp [Session.run, Session.dialect]

end Program

/-- A program reads the dialect that was set last, except that the end of a scope brings back what
was read before the scope, whatever was set inside. Each draft and each style is made with the
dialect that is read at that point, and nothing but an edit of the draft replaces it. Only a scope
inside another and the end of a scope that is not open stop a program. -/
theorem Program.dialect_scoped_and_captured (program : Program) (current : Dialect)
    (reads : program.answer? .readDialect = some (.dialect current)) :
    (∀ first, (program.answer? first).isSome ↔
      (first.opensScope → program.session.saved = none) ∧
        (first = .leave → program.session.saved ≠ none)) ∧
    (∀ dialect,
      program.answer? (.setDialect dialect) = some (.dialect current) ∧
      ∀ first next, first = .setDialect dialect ∨ first = .enter dialect →
        program.run [first] = some next → next.answer? .readDialect = some (.dialect dialect)) ∧
    (∀ dialect inside, .leave ∉ inside →
      (program.run (.enter dialect :: inside ++ [.leave])).bind (·.answer? .readDialect) =
        (if program.session.saved.isSome || inside.any Step.opensScope then none
          else some (.dialect current)) ∧
      ∀ others, others.filter (fun step => !step.setsDialect) =
          inside.filter (fun step => !step.setsDialect) → ∀ after,
        (program.run (.enter dialect :: others ++ .leave :: after)).bind (·.answer? .readDialect) =
          (program.run (.enter dialect :: inside ++ .leave :: after)).bind
            (·.answer? .readDialect)) ∧
    ∀ first later final, program.run (first :: later) = some final →
      (∀ made, first.draft? current = some made →
        let number := program.drafts.length
        let edits := editsOf number later
        ∃ draft, final.drafts[number]? = some draft ∧
          draft = (made.editAll edits).value ∧
          draft.dialect = (Draft.latest Draft.Edit.dialect? edits).getD current ∧
          final.answer? (.writeDraft number) =
            some (.written (((Draft.latest Draft.Edit.dialect? edits).getD current).style.write
              draft.query))) ∧
      (∀ made, first.style? current = some made → ∀ query,
        final.answer? (.writeQuery program.styles.length query) =
          some (.written (current.style.write query))) := by
  have read : program.session.dialect = current := by
    cases reads
    rfl
  subst read
  refine ⟨?_, ?_, ?_, ?_⟩
  · intro first
    rw [isSome_answer?]
    exact Session.isSome_step_iff program.session first
  · intro dialect
    refine ⟨rfl, ?_⟩
    intro first next sets ran
    rw [← dialect_set ran sets]
    rfl
  · intro dialect inside held
    refine ⟨read_left program dialect held, ?_⟩
    intro others same after
    rw [read_run, read_run, session_run_of_filter_eq _ _ held same]
  · intro first later final ran
    constructor
    · intro made makes
      have found := drafts_making ran makes
      have captured := Draft.dialect_after made (editsOf program.drafts.length later)
      rw [Step.dialect_of_draft? makes] at captured
      refine ⟨_, found, (Draft.value_editAll _ _).symm, captured, ?_⟩
      rw [← captured, ← Draft.write_eq, answer?, step, found]
      rfl
    · intro made makes query
      have found := styles_making ran makes
      rw [answer?, step, found, Step.eq_of_style? makes]
      rfl

/-- What a program does in a scope for the general dialect. -/
def Program.outing : List Program.Step :=
  [.newDraft, .setDialect .cql, .edit 0 .delete, .edit 0 (.table "t"),
    .edit 0 (.filter (.all [.eq "a" (.raw "b")])), .newStyle, .setDialect .standard]

/-- Back from its outing a program reads CQL again. The draft made on it does not follow: it keeps
its parentheses. Nor does a style follow where the dialect is set. -/
theorem Program.dialect_scoped_and_captured_outing :
    .leave ∉ outing ∧
    (({} : Program).run (.enter .standard :: outing ++ [.leave])).bind (·.answer? .readDialect) =
      some (.dialect .cql) ∧
    (∃ entered final, ({} : Program).run [.enter .standard] = some entered ∧
      entered.run (outing ++ [.leave]) = some final ∧
      final.answer? (.writeDraft 0) = some (.written
        { value := .ok ⟨"delete from t where (a = b)", []⟩
          log := [.writing .delete "default"] })) ∧
    ∃ changed, ({} : Program).run [.newStyle, .setDialect .standard] = some changed ∧
      ∀ query, changed.answer? (.writeQuery 0 query) =
        some (.written (Dialect.cql.style.write query)) := by
  have held : .leave ∉ outing := by simp [outing]
  obtain ⟨-, -, bracketed, fromStart⟩ := Program.dialect_scoped_and_captured {} .cql rfl
  obtain ⟨restored, -⟩ := bracketed .standard outing held
  refine ⟨held, restored, ?drafts, ?styles⟩
  case drafts =>
    let entered : Program := { session := { code := Dialect.standard.code, saved := some .cql } }
    obtain ⟨final, ran⟩ : ∃ final, entered.run (outing ++ [.leave]) = some final := ⟨_, rfl⟩
    obtain ⟨-, -, -, captured⟩ := Program.dialect_scoped_and_captured entered .standard rfl
    obtain ⟨kept, -⟩ := captured .newDraft _ final ran
    obtain ⟨draft, -, rfl, -, written⟩ := kept _ rfl
    exact ⟨entered, final, rfl, ran, written⟩
  case styles =>
    obtain ⟨changed, ran⟩ : ∃ changed,
        ({} : Program).run [.newStyle, .setDialect .standard] = some changed := ⟨_, rfl⟩
    obtain ⟨-, kept⟩ := fromStart .newStyle [.setDialect .standard] changed ran
    exact ⟨changed, ran, kept _ rfl⟩

end BoundQuery
