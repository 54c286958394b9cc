/-
  Sql/Select.lean --- what a query returns.

  The values of the columns are of any type that says how its values compare; a
  comparison may be unknown, as one with a null is, and a row is selected when all the
  conditions are known to hold.  An error (a missing placeholder, a value that cannot be
  sent, a column the table does not have, values that do not compare) is `none`.

  How rows that agree in the column of `ORDER BY` are listed is the choice of the engine:
  a table comes with the listing the engine uses for a column.

  `run_listed` and `run_count` are the two rules: what a query returns, once its
  conditions are decided and its columns read for every row.
-/
import RtlsStream.Foundation.Window
import RtlsStream.Sql.Text

set_option autoImplicit false

namespace RtlsStream.Sql

open RtlsStream.Foundation

/-- What the driver and the engine do with values. -/
structure Values (V : Type*) where
  /-- the value can be sent as a parameter -/
  sends : V → Bool
  /-- the outer `none` is an error, the inner one an unknown truth -/
  compare : Comparison → V → V → Option (Option Bool)
  ofCount : Nat → V
  /-- a value as the number of rows of a `LIMIT` or `OFFSET` -/
  toCount : V → Option Nat

/-- A table as the engine reads it. -/
structure Relation (ρ V : Type*) where
  rows : List ρ
  column : ρ → Name → Option V
  /-- the listing for `ORDER BY column DESC` -/
  listed : Name → Option (ListingOrder ρ)

/-- A condition whose placeholder is bound to a value. -/
structure Test (V : Type*) where
  column : Name
  comparison : Comparison
  value : V

variable {ρ V : Type} (vals : Values V)

def Condition.bind (params : Name → Option V) (c : Condition) : Option (Test V) := do
  let value ← params c.param
  if vals.sends value then some ⟨c.column, c.comparison, value⟩ else none

/-- Whether a row meets a test. -/
def Test.holds (t : Relation ρ V) (r : ρ) (test : Test V) : Option Bool := do
  let value ← t.column r test.column
  let truth ← vals.compare test.comparison value test.value
  some (truth = some true)

/-- Whether a row meets all tests. -/
def admits (t : Relation ρ V) (tests : List (Test V)) (r : ρ) : Option Bool :=
  (tests.mapM (Test.holds vals t r)).map (·.all id)

/-- The rows that are selected. -/
def keep (admits : ρ → Option Bool) : List ρ → Option (List ρ)
  | [] => some []
  | r :: rest => do
    let here ← admits r
    let others ← keep admits rest
    some (if here then r :: others else others)

/-- The number a `LIMIT` or `OFFSET` gives, if there is one. -/
def Values.bound (params : Name → Option V) : Option Name → Option (Option Nat)
  | none => some none
  | some name => (params name).bind fun value => (vals.toCount value).map some

/-- The rows in the order of the query. -/
def Query.listing (q : Query) (t : Relation ρ V) (rows : List ρ) : Option (List ρ) :=
  match q.orderBy with
  | none => some rows
  | some column => (t.listed column).map (·.listing rows)

/-- What a query returns, row by row. -/
def Query.run (q : Query) (t : Relation ρ V) (params : Name → Option V) :
    Option (List (List V)) := do
  let tests ← q.conditions.mapM (·.bind vals params)
  let limit ← vals.bound params q.limit
  let offset ← vals.bound params q.offset
  let rows ← keep (admits vals t tests) t.rows
  match q.selected with
  | .count =>
    if q.orderBy = none ∧ limit = none ∧ offset = none then some [[vals.ofCount rows.length]]
    else none
  | .columns names => do
    let listing ← q.listing t rows
    let rest := listing.drop (offset.getD 0)
    (limit.elim rest rest.take).mapM fun r => names.mapM (t.column r)

/-- Run the query of a text on the table it names. -/
def execute (db : Name → Option (Relation ρ V)) (text : List Nat) (params : Name → Option V) :
    Option (List (List V)) := do
  let q ← parse text
  let t ← db q.table
  q.run vals t params

/-! ## The rules -/

theorem mapM_eq_some {α β : Type} {f : α → Option β} {g : α → β} {l : List α}
    (h : ∀ a ∈ l, f a = some (g a)) : l.mapM f = some (l.map g) := by
  induction l with
  | nil => rfl
  | cons a rest ih =>
    simp [List.mapM_cons, h a List.mem_cons_self,
      ih fun b hb => h b (List.mem_cons_of_mem _ hb)]

theorem keep_eq_filter {f : ρ → Option Bool} {p : ρ → Bool} {rows : List ρ}
    (h : ∀ r ∈ rows, f r = some (p r)) : keep f rows = some (rows.filter p) := by
  induction rows with
  | nil => rfl
  | cons r rest ih =>
    rw [keep, h r List.mem_cons_self, ih fun b hb => h b (List.mem_cons_of_mem _ hb)]
    cases hp : p r <;> simp [hp]

variable {vals} {q : Query} {t : Relation ρ V} {params : Name → Option V} {tests : List (Test V)}
  {p : ρ → Bool}

/-- A query with a listing and a window returns the window of what it selects. -/
theorem run_listed {names : List Name} {column : Name} {order : ListingOrder ρ}
    {limit offset : Nat} {f : ρ → List V} (hselected : q.selected = .columns names)
    (htests : q.conditions.mapM (·.bind vals params) = some tests)
    (hadmits : ∀ r ∈ t.rows, admits vals t tests r = some (p r))
    (horder : q.orderBy = some column) (hlisted : t.listed column = some order)
    (hlimit : vals.bound params q.limit = some (some limit))
    (hoffset : vals.bound params q.offset = some (some offset))
    (hcolumns : ∀ r, names.mapM (t.column r) = some (f r)) :
    q.run vals t params = some ((order.window (t.rows.filter p) offset limit).map f) := by
  simp only [Query.run, htests, hlimit, hoffset, keep_eq_filter hadmits, hselected, Query.listing,
    horder, hlisted, Option.map_some, Option.bind_eq_bind, Option.bind_some, Option.getD_some,
    Option.elim_some]
  exact mapM_eq_some fun r _ => hcolumns r

/-- A count without a window returns the number of the rows it selects. -/
theorem run_count (hselected : q.selected = .count)
    (htests : q.conditions.mapM (·.bind vals params) = some tests)
    (hadmits : ∀ r ∈ t.rows, admits vals t tests r = some (p r))
    (horder : q.orderBy = none) (hlimit : q.limit = none) (hoffset : q.offset = none) :
    q.run vals t params = some [[vals.ofCount (t.rows.filter p).length]] := by
  simp [Query.run, htests, hlimit, hoffset, keep_eq_filter hadmits, hselected, horder,
    Values.bound]

/-- A text is run as the query it parses to. -/
theorem execute_eq {db : Name → Option (Relation ρ V)} {text : List Nat}
    (hparse : parse text = some q) (htable : db q.table = some t) :
    execute vals db text params = q.run vals t params := by
  simp [execute, hparse, htable]

end RtlsStream.Sql
