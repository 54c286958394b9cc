/-
  Sql/Text.lean --- the texts of queries of one table.

  The queries are those of the form

      SELECT columns | COUNT(*) FROM table WHERE column op %(name)s AND ...
        [ORDER BY column DESC] [LIMIT %(name)s] [OFFSET %(name)s]

  A text is cut into tokens by a machine that reads one character at a time, and the
  tokens are parsed clause by clause.  Keywords and the names of columns and tables are
  folded to lower case, the names of placeholders are not.
-/
import Mathlib.Data.List.Basic

set_option autoImplicit false

namespace RtlsStream.Sql

/-- A name or a keyword, as its characters. -/
abbrev Name := List Nat

/-- The characters of a literal. -/
def word (s : String) : Name := s.toList.map Char.toNat

/-! ## Tokens -/

inductive Comparison where
  | equal
  | atLeast
  | atMost
  deriving DecidableEq

inductive Token where
  | word (w : Name)
  | comparison (c : Comparison)
  | placeholder (name : Name)
  | comma
  | star
  | opens
  | closes
  deriving DecidableEq

/-- Where the machine is. -/
inductive Mode where
  | between
  | inWord (w : Name)
  /-- behind `<` or `>`, which `=` has to follow -/
  | comparing (c : Comparison)
  /-- behind `%` -/
  | percent
  | inPlaceholder (name : Name)
  /-- behind the `)` of a placeholder -/
  | afterPlaceholder (name : Name)

def isBlank (c : Nat) : Bool := c = 32 || (9 ≤ c && c ≤ 13)

/-- A letter, a digit or `_`. -/
def isWordChar (c : Nat) : Bool :=
  (97 ≤ c && c ≤ 122) || (65 ≤ c && c ≤ 90) || (48 ≤ c && c ≤ 57) || c = 95

def fold (c : Nat) : Nat := if 65 ≤ c ∧ c ≤ 90 then c + 32 else c

/-- The first character of a token. -/
def start (c : Nat) : Option (List Token × Mode) :=
  if isBlank c then some ([], .between)
  else if isWordChar c then some ([], .inWord [fold c])
  else if c = 44 then some ([.comma], .between)
  else if c = 42 then some ([.star], .between)
  else if c = 40 then some ([.opens], .between)
  else if c = 41 then some ([.closes], .between)
  else if c = 61 then some ([.comparison .equal], .between)
  else if c = 62 then some ([], .comparing .atLeast)
  else if c = 60 then some ([], .comparing .atMost)
  else if c = 37 then some ([], .percent)
  else none

/-- One character: the tokens it completes, and where the machine is then. -/
def Mode.next (c : Nat) : Mode → Option (List Token × Mode)
  | .between => start c
  | .inWord w =>
    if isWordChar c then some ([], .inWord (w ++ [fold c]))
    else (start c).map fun (out, mode) => (.word w :: out, mode)
  | .comparing comparison => if c = 61 then some ([.comparison comparison], .between) else none
  | .percent => if c = 40 then some ([], .inPlaceholder []) else none
  | .inPlaceholder name =>
    if c = 41 then some ([], .afterPlaceholder name) else some ([], .inPlaceholder (name ++ [c]))
  | .afterPlaceholder name => if c = 115 then some ([.placeholder name], .between) else none

/-- The tokens of a text. -/
def tokens : Mode → List Nat → Option (List Token)
  | .between, [] => some []
  | .inWord w, [] => some [.word w]
  | _, [] => none
  | mode, c :: rest => do
    let (out, mode) ← mode.next c
    let others ← tokens mode rest
    some (out ++ others)

/-! ## Queries -/

/-- `column op %(param)s` -/
structure Condition where
  column : Name
  comparison : Comparison
  param : Name
  deriving DecidableEq

inductive Selected where
  | columns (names : List Name)
  | count
  deriving DecidableEq

structure Query where
  selected : Selected
  table : Name
  /-- the conditions of `WHERE`, all of which have to hold -/
  conditions : List Condition
  /-- the column of `ORDER BY ... DESC` -/
  orderBy : Option Name
  /-- the placeholders of `LIMIT` and `OFFSET` -/
  limit : Option Name
  offset : Option Name
  deriving DecidableEq

def parseColumns : List Token → Option (List Name × List Token)
  | .word c :: .comma :: rest => do
    let (names, rest) ← parseColumns rest
    some (c :: names, rest)
  | .word c :: rest => some ([c], rest)
  | _ => none

def parseSelected : List Token → Option (Selected × List Token)
  | .word w :: .opens :: .star :: .closes :: rest =>
    if w = word "count" then some (.count, rest) else none
  | tokens => (parseColumns tokens).map fun (names, rest) => (.columns names, rest)

def parseConditions : List Token → Option (List Condition × List Token)
  | .word column :: .comparison comparison :: .placeholder param :: .word w :: rest =>
    if w = word "and" then do
      let (conditions, rest) ← parseConditions rest
      some (⟨column, comparison, param⟩ :: conditions, rest)
    else some ([⟨column, comparison, param⟩], .word w :: rest)
  | .word column :: .comparison comparison :: .placeholder param :: rest =>
    some ([⟨column, comparison, param⟩], rest)
  | _ => none

/-- `ORDER BY ... DESC`, if it is there. -/
def parseOrder : List Token → Option Name × List Token
  | .word w₁ :: .word w₂ :: .word column :: .word w₃ :: rest =>
    if w₁ = word "order" ∧ w₂ = word "by" ∧ w₃ = word "desc" then (some column, rest)
    else (none, .word w₁ :: .word w₂ :: .word column :: .word w₃ :: rest)
  | tokens => (none, tokens)

/-- `LIMIT` or `OFFSET` with its placeholder, if it is there. -/
def parseBound (keyword : Name) : List Token → Option Name × List Token
  | .word w :: .placeholder param :: rest =>
    if w = keyword then (some param, rest) else (none, .word w :: .placeholder param :: rest)
  | tokens => (none, tokens)

/-- What stands behind the list of a `SELECT`. -/
def parseFrom (selected : Selected) : List Token → Option Query
  | .word w₁ :: .word table :: .word w₂ :: rest =>
    if w₁ = word "from" ∧ w₂ = word "where" then do
      let (conditions, rest) ← parseConditions rest
      let (orderBy, rest) := parseOrder rest
      let (limit, rest) := parseBound (word "limit") rest
      let (offset, rest) := parseBound (word "offset") rest
      if rest = [] then some ⟨selected, table, conditions, orderBy, limit, offset⟩ else none
    else none
  | _ => none

/-- The query of a text. -/
def parse (text : List Nat) : Option Query := do
  match ← tokens .between text with
  | .word w :: rest =>
    if w = word "select" then do
      let (selected, rest) ← parseSelected rest
      parseFrom selected rest
    else none
  | _ => none

end RtlsStream.Sql
