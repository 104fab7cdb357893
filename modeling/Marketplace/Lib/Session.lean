import Mathlib.Logic.Basic

/-!
# Sessions of an SQL server

One connection, as the server keeps it: a transaction is open, or has failed and takes nothing more,
or there is none; a COMMIT of a failed one ends it as a ROLLBACK would, without an error. And what a
client does inside of a transaction: a program that sends statements, goes on with what they answer,
and waits for other things in between.
-/

namespace Session

inductive Command (Statement : Type) where
  | begin
  | statement (statement : Statement)
  | commit
  | rollback
  deriving DecidableEq

/-- `opened` has the statements of the transaction so far. -/
inductive Status (Statement : Type) where
  | idle
  | opened (pending : List Statement)
  | aborted
  | dead
  deriving DecidableEq

/-- The answer to a command: whether it is no error, and the statements that are committed with
it. -/
structure Effect (Statement : Type) where
  status : Status Statement
  succeeds : Bool
  committed : Option (List Statement)

variable {Statement : Type}

/-- `fails` is the choice of the server, where it has one. -/
def Status.execute (fails : Bool) : Status Statement → Command Statement → Effect Statement
  | .idle, .begin => ⟨.opened [], true, none⟩
  | .idle, .statement statement =>
      if fails then ⟨.idle, false, none⟩ else ⟨.idle, true, some [statement]⟩
  | .idle, .commit | .idle, .rollback => ⟨.idle, true, none⟩
  | .opened pending, .begin => ⟨.opened pending, true, none⟩
  | .opened pending, .statement statement =>
      if fails then ⟨.aborted, false, none⟩ else ⟨.opened (pending ++ [statement]), true, none⟩
  | .opened pending, .commit => if fails then ⟨.idle, false, none⟩ else ⟨.idle, true, some pending⟩
  | .opened _, .rollback => ⟨.idle, true, none⟩
  | .aborted, .begin | .aborted, .statement _ => ⟨.aborted, false, none⟩
  | .aborted, .commit | .aborted, .rollback => ⟨.idle, true, none⟩
  | .dead, _ => ⟨.dead, false, none⟩

/-- There is no transaction on the connection. -/
def Status.isClean : Status Statement → Bool
  | .idle | .dead => true
  | .opened _ | .aborted => false

/-- The end of a transaction is the end of it, whatever is answered. -/
theorem isClean_execute_end {command : Command Statement}
    (hend : command = .commit ∨ command = .rollback) (fails : Bool) (status : Status Statement) :
    (status.execute fails command).status.isClean = true := by
  rcases hend with rfl | rfl <;> cases status <;> cases fails <;> rfl

theorem execute_statement_of_isClean {status : Status Statement} (hclean : status.isClean = true)
    (fails : Bool) (statement : Statement) :
    (status.execute fails (.statement statement)).status.isClean = true := by
  cases status <;> cases fails <;> first | rfl | cases hclean

/-- What a client does with the transaction: `none` is an error that it may catch; with `await` it
asks somebody else. -/
inductive Program (Statement Rows Request Outcome Result : Type) where
  | done (result : Result)
  | throw
  | query (statement : Statement)
      (next : Option Rows → Program Statement Rows Request Outcome Result)
  | await (request : Request) (next : Outcome → Program Statement Rows Request Outcome Result)

/-- A statement or another request, with what came back. -/
inductive Event (Statement Rows Request Outcome : Type) where
  | query (statement : Statement) (rows : Rows)
  | await (request : Request) (outcome : Outcome)
  deriving DecidableEq

def Event.statement {Rows Request Outcome : Type} : Event Statement Rows Request Outcome →
    Option Statement
  | .query statement _ => some statement
  | .await _ _ => none

def statements {Rows Request Outcome : Type}
    (trace : List (Event Statement Rows Request Outcome)) : List Statement :=
  trace.filterMap Event.statement

section Traces

variable {Rows Request Outcome : Type} (trace : List (Event Statement Rows Request Outcome))

@[simp]
theorem statements_nil : statements ([] : List (Event Statement Rows Request Outcome)) = [] := rfl

@[simp]
theorem statements_cons_query (statement : Statement) (rows : Rows) :
    statements (.query statement rows :: trace) = statement :: statements trace := rfl

@[simp]
theorem statements_cons_await (request : Request) (outcome : Outcome) :
    statements (.await request outcome :: trace) = statements trace := rfl

@[simp]
theorem statements_append (rest : List (Event Statement Rows Request Outcome)) :
    statements (trace ++ rest) = statements trace ++ statements rest :=
  List.filterMap_append

end Traces

namespace Program

variable {Rows Request Outcome Result : Type}
  {program middle : Program Statement Rows Request Outcome Result}
  {trace : List (Event Statement Rows Request Outcome)}

/-- It gets there with these statements answered and these outcomes. -/
inductive Reaches (program : Program Statement Rows Request Outcome Result) :
    List (Event Statement Rows Request Outcome) →
      Program Statement Rows Request Outcome Result → Prop
  | start : Reaches program [] program
  | query {trace : List (Event Statement Rows Request Outcome)} {statement : Statement}
      {next : Option Rows → Program Statement Rows Request Outcome Result} (rows : Rows)
      (hreaches : Reaches program trace (.query statement next)) :
      Reaches program (trace ++ [.query statement rows]) (next (some rows))
  | await {trace : List (Event Statement Rows Request Outcome)} {request : Request}
      {next : Outcome → Program Statement Rows Request Outcome Result} (outcome : Outcome)
      (hreaches : Reaches program trace (.await request next)) :
      Reaches program (trace ++ [.await request outcome]) (next outcome)

/-- A failed statement is the end of it. -/
def Strict : Program Statement Rows Request Outcome Result → Prop
  | done _ | throw => True
  | query _ next => next none = throw ∧ ∀ rows, (next (some rows)).Strict
  | await _ next => ∀ outcome, (next outcome).Strict

theorem Strict.of_reaches (hstrict : program.Strict) (hreaches : program.Reaches trace middle) :
    middle.Strict := by
  induction hreaches with
  | start => exact hstrict
  | query rows _ ih => exact ih.2 rows
  | await outcome _ ih => exact ih outcome

/-! ### What comes first -/

theorem Reaches.of_done {result : Result}
    (hreaches : (done result : Program Statement Rows Request Outcome Result).Reaches
      trace middle) :
    trace = [] ∧ middle = done result := by
  induction hreaches with
  | start => exact ⟨rfl, rfl⟩
  | query rows _ ih => cases ih.2
  | await outcome _ ih => cases ih.2

theorem Reaches.of_throw
    (hreaches : (throw : Program Statement Rows Request Outcome Result).Reaches trace middle) :
    trace = [] ∧ middle = throw := by
  induction hreaches with
  | start => exact ⟨rfl, rfl⟩
  | query rows _ ih => cases ih.2
  | await outcome _ ih => cases ih.2

theorem Reaches.of_query {statement : Statement}
    {next : Option Rows → Program Statement Rows Request Outcome Result}
    (hreaches : (Program.query statement next).Reaches trace middle) :
    trace = [] ∧ middle = .query statement next ∨
      ∃ rows rest, trace = .query statement rows :: rest ∧
        (next (some rows)).Reaches rest middle := by
  induction hreaches with
  | start => exact .inl ⟨rfl, rfl⟩
  | query rows hreaches ih =>
      rcases ih with ⟨rfl, hsame⟩ | ⟨first, rest, rfl, hrest⟩
      · cases hsame
        exact .inr ⟨rows, [], rfl, .start⟩
      · exact .inr ⟨first, _, rfl, hrest.query rows⟩
  | await outcome hreaches ih =>
      rcases ih with ⟨rfl, hsame⟩ | ⟨first, rest, rfl, hrest⟩
      · cases hsame
      · exact .inr ⟨first, _, rfl, hrest.await outcome⟩

theorem Reaches.of_await {request : Request}
    {next : Outcome → Program Statement Rows Request Outcome Result}
    (hreaches : (Program.await request next).Reaches trace middle) :
    trace = [] ∧ middle = .await request next ∨
      ∃ outcome rest, trace = .await request outcome :: rest ∧
        (next outcome).Reaches rest middle := by
  induction hreaches with
  | start => exact .inl ⟨rfl, rfl⟩
  | query rows hreaches ih =>
      rcases ih with ⟨rfl, hsame⟩ | ⟨first, rest, rfl, hrest⟩
      · cases hsame
      · exact .inr ⟨first, _, rfl, hrest.query rows⟩
  | await outcome hreaches ih =>
      rcases ih with ⟨rfl, hsame⟩ | ⟨first, rest, rfl, hrest⟩
      · cases hsame
        exact .inr ⟨outcome, [], rfl, .start⟩
      · exact .inr ⟨first, _, rfl, hrest.await outcome⟩

end Program

end Session
