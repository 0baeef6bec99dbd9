import ResourceLiterals.Toml.Statement

/-!
# Documents

A TOML text as a whole.  Its statements are taken one by one while the tables that headers have
opened wait on a stack, each inside the one before it.  A header closes all tables that it does not
lie in.

* `OpenTable` is a table that is still being filled, `Builder` the stack with the entries outside of
  all tables.
* `Builder.close` puts the innermost table into the one around it.
* `parse` reads a text, and so it is the `Reader` of this library.
-/

namespace ResourceLiterals.Toml

/-- A table that a header has opened and whose entries are being collected. -/
structure OpenTable where
  path : List String
  /-- What the key adds to that of the table around it. -/
  names : List String
  /-- Whether it is an element of an array of tables. -/
  element : Bool
  /-- What is said about the table of the first of several names. -/
  origin : Origin
  /-- The elements that came before it. -/
  finished : List (List Entry)
  entries : List Entry

/-- The tables that are open, innermost first, and the entries outside of them. -/
structure Builder where
  root : List Entry
  stack : List OpenTable

namespace OpenTable

/-- What has been collected for the table itself. -/
def node (table : OpenTable) : Node :=
  if table.element then .tables (table.finished ++ [table.entries])
  else .table .headed table.entries

/-- The entry for the table around it, with implicit tables for the names in between. -/
def entry? (table : OpenTable) : Option Entry :=
  wrap table.origin table.names
where
  /-- The entry under a list of names, of which the first one stands for a table of an origin. -/
  wrap (origin : Origin) : List String → Option Entry
    | [] => none
    | [name] => some (.mk name false table.node)
    | name :: names =>
      (wrap .mentioned names).map fun inner => .mk name false (.table origin [inner])

end OpenTable

namespace Builder

def empty : Builder := ⟨[], []⟩

/-- Adds an entry to the table that is open.  A conflict in there is told apart from one outside of
all tables, which spoils the text as a whole. -/
def add (fuel : Nat) (builder : Builder) (entry : Entry) : Except Fault Builder :=
  match builder.stack with
  | [] =>
    match insert fuel true builder.root entry with
    | .ok root => .ok { builder with root }
    | .error _ => .error .malformed
  | table :: outer =>
    -- The parts of a table that come without dotted keys are compared when it is closed.
    (insert fuel entry.dotted table.entries entry).map fun entries =>
      { builder with stack := { table with entries } :: outer }

/-- Puts the innermost open table into the one around it. -/
def close (fuel : Nat) (builder : Builder) : Except Fault Builder :=
  match builder.stack with
  | [] => .ok builder
  | table :: outer => do
    checkAll fuel table.entries
    match table.entry? with
    | some entry => add fuel { builder with stack := outer } entry
    | none => throw .malformed

/-- Closes open tables as long as the innermost one satisfies `p`; `count` is how many there are. -/
def closeWhile (fuel : Nat) (p : OpenTable → Bool) : (count : Nat) → Builder → Except Fault Builder
  | 0, builder => .ok builder
  | count + 1, builder =>
    match builder.stack with
    | [] => .ok builder
    | table :: _ =>
      if p table then do closeWhile fuel p count (← close fuel builder) else .ok builder

/-- Whether a table lies around the one of a header, or is the array to which it adds. -/
def leadsTo (element : Bool) (key : List String) (table : OpenTable) : Bool :=
  (table.path.isPrefixOf key && table.path.length < key.length) ||
    (table.path == key && table.element && element && table.names.length == 1)

/-- Where the table of the first name in a header comes from, if there are more names. -/
def originOf (stack : List OpenTable) (element : Bool) (names : List String) : Origin :=
  let continued := stack.any fun table =>
    table.element && !table.finished.isEmpty && table.path == names.take 1
  if element && continued then .element else .mentioned

/-- Opens the table of a header. -/
def openTable (fuel : Nat) (builder : Builder) (element : Bool) (key : List String) :
    Except Fault Builder := do
  let builder ← closeWhile fuel (!leadsTo element key ·) builder.stack.length builder
  match builder.stack with
  | [] => return { builder with stack := [⟨key, key, element, .mentioned, [], []⟩] }
  | table :: outer =>
    if table.path == key then
      checkAll fuel table.entries
      let next := { table with finished := table.finished ++ [table.entries], entries := [] }
      return { builder with stack := next :: outer }
    else
      let names := key.drop table.path.length
      let inner := ⟨key, names, element, originOf builder.stack element names, [], []⟩
      return { builder with stack := inner :: builder.stack }

def take (fuel : Nat) (builder : Builder) : Statement → Except Fault Builder
  | .header element key => openTable fuel builder element key
  | .entry key value =>
    match keyedEntry value key with
    | some entry => add fuel builder entry
    | none => .error .malformed

end Builder

def parse (chars : List Char) : Except Fault Table := do
  let fuel := fuelFor chars
  let (statements, fault) := statements chars
  let builder ← statements.foldlM (Builder.take fuel) .empty
  match fault with
  | some fault => throw fault
  | none =>
    let builder ← Builder.closeWhile fuel (fun _ => true) builder.stack.length builder
    toTable fuel builder.root

instance : Reader where
  read := parse

end ResourceLiterals.Toml
