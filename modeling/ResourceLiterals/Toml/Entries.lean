import ResourceLiterals.Toml.Text

/-!
# Tables under construction

The entries of a table come in piece by piece: a table may be announced by the header of one of its
subtables, extended by dotted keys, and continued after other tables.  Several parts may then stand
under one key, and they have to agree in the end.

* `Node` and `Entry`: what has been collected under a key.
* `meet` says what becomes of an entry whose key is taken, `insert` adds an entry.
* `checkParts` looks for keys that occur in two parts of one table.
* `toTable` puts the parts together.
-/

namespace ResourceLiterals.Toml

/-- How a table has come up. -/
inductive Origin where
  /-- It has a header of its own. -/
  | headed
  /-- It has only been mentioned as part of a longer key. -/
  | mentioned
  /-- It has been mentioned by the header of an array of tables inside of another array that is
  being continued and whose name it shares.  It counts as an element of an array of its own. -/
  | element
deriving DecidableEq, Repr

mutual

/-- What has been collected under a key. -/
inductive Node where
  | value (value : Value)
  | table (origin : Origin) (entries : List Entry)
  /-- The tables of an array of tables. -/
  | tables (elements : List (List Entry))

/-- A key with what has been collected under it, and whether it came as part of a dotted key. -/
inductive Entry where
  | mk (key : String) (dotted : Bool) (node : Node)

end

def Entry.key : Entry → String
  | .mk key _ _ => key

/-- Whether the key of an entry came as part of a dotted key. -/
def Entry.dotted : Entry → Bool
  | .mk _ dotted _ => dotted

def Entry.node : Entry → Node
  | .mk _ _ node => node

def Entry.isTable (entry : Entry) : Bool :=
  match entry.node with
  | .table .. => true
  | _ => false

/-- The latest entry under a key. -/
def latest? (key : String) (entries : List Entry) : Option Entry :=
  entries.reverse.find? (·.key == key)

/-- Puts other content into the latest entry under a key. -/
def replaceLatest (key : String) (node : Node) (entries : List Entry) : List Entry :=
  let after := entries.reverse.takeWhile (·.key != key)
  match entries.reverse.dropWhile (·.key != key) with
  | [] => entries
  | entry :: before => (after ++ .mk key entry.dotted node :: before).reverse

/-- Puts other content under a key, in place of all parts that stand there. -/
def replaceAll (key : String) (node : Node) (entries : List Entry) : List Entry :=
  entries.takeWhile (·.key != key) ++
    .mk key false node :: (entries.dropWhile (·.key != key)).filter (·.key != key)

/-- The entries of the tables under a key, part by part. -/
def tableParts (key : String) (entries : List Entry) : List (List Entry) :=
  entries.filterMap fun entry =>
    match entry.node with
    | .table _ inner => if entry.key = key then some inner else none
    | _ => none

/-- How many entries stand under a key. -/
def partCount (key : String) (entries : List Entry) : Nat :=
  entries.countP (·.key == key)

/-- The keys of entries in the order in which they first occur. -/
def keys (entries : List Entry) : List String :=
  (entries.map Entry.key).eraseDups

/-- Whether the last table among the entries stands under a key. -/
def endsWithTable (key : String) (entries : List Entry) : Bool :=
  (entries.reverse.find? Entry.isTable).any (·.key == key)

/-- What becomes of an entry whose key is taken. -/
inductive Meeting where
  /-- It must not be there. -/
  | clash (fault : Fault)
  /-- It stands as another part beside what is there. -/
  | part
  /-- Other content takes the place of what is there latest. -/
  | replace (node : Node)
  /-- Other content takes the place of all that is there. -/
  | replaceAll (node : Node)
  /-- Its own entries join those that are there, as part of the whole. -/
  | merge (outer inner : List Entry) (whole : List Entry → Node)

/-- How an entry meets the latest one under its key.  A table that has been mentioned may get a
header and the other way round, unless one of the two was mentioned by a dotted key.  What is said
about an array of tables concerns its last element. -/
def meet (entries : List Entry) (entry current : Entry) : Meeting :=
  match entry.node, current.node with
  | .table .element inner, .table _ outer => .replaceAll (.tables [outer, inner])
  | .table .element inner, .tables elements => .replace (.tables (elements ++ [inner]))
  | .table .headed _, .table .headed _ => .clash .repeatedKey
  | .table .headed _, .table .. => if current.dotted then .clash .redefinedTable else .part
  | .table .mentioned _, .table .headed _ =>
    if entry.dotted then .clash .redefinedTable else .part
  | .table .mentioned inner, .table origin outer =>
    if entry.dotted || current.dotted || !endsWithTable entry.key entries then .part
    else .merge outer inner (.table origin)
  | .table .mentioned inner, .tables elements =>
    if entry.dotted then .clash .redefinedTable
    else
      match elements.getLast? with
      | some last => .merge last inner fun merged => .tables (elements.dropLast ++ [merged])
      | none => .clash .repeatedKey
  | .tables new, .tables old => .replace (.tables (old ++ new))
  | _, _ => .clash .repeatedKey

/-- All entries of the parts of a table.  The tables of two arrays under one key form one array;
otherwise what follows under a key must follow a table. -/
def joinParts (parts : List (List Entry)) : Except Fault (List Entry) :=
  parts.flatten.foldlM
    (fun joined entry =>
      match latest? entry.key joined with
      | none => .ok (joined ++ [entry])
      | some current =>
        match entry.node, current.node with
        | .tables new, .tables old => .ok (replaceLatest entry.key (.tables (old ++ new)) joined)
        | _, .table .. => .ok (joined ++ [entry])
        | _, _ => .error .repeatedKey) []

mutual

/-- Adds an entry; `checking` says whether a new part of a table is compared with the earlier ones,
which have to agree among themselves in any case.  Merged entries are one level further in, so
`fuel` only has to exceed a multiple of the depth. -/
def insert : (fuel : Nat) → (checking : Bool) → List Entry → Entry → Except Fault (List Entry)
  | 0, _, _, _ => .error .malformed
  | fuel + 1, checking, entries, entry =>
    let appended := entries ++ [entry]
    match latest? entry.key entries, wholeTable fuel entry.key entries with
    | none, _ => .ok appended
    | some _, .error fault => .error fault
    | some current, .ok _ =>
      match meet entries entry current with
      | .clash fault => .error fault
      | .part =>
        if checking then
          match checkParts fuel entry.key appended with
          | .error fault => .error fault
          | .ok () => .ok appended
        else
          .ok appended
      | .replace node => .ok (replaceLatest entry.key node entries)
      | .replaceAll node => .ok (replaceAll entry.key node entries)
      | .merge outer inner whole =>
        match inner.foldlM (insert fuel true) outer with
        | .error fault => .error fault
        | .ok merged => .ok (replaceLatest entry.key (whole merged) entries)

/-- Whether the parts of the table under a key could have been added one to the other, and those of
the tables inside. -/
def checkParts : (fuel : Nat) → String → List Entry → Except Fault Unit
  | 0, _, _ => .error .malformed
  | fuel + 1, key, entries =>
    if partCount key entries ≤ 1 then
      .ok ()
    else do
      let joined ← (tableParts key entries).flatten.foldlM (insert fuel false) []
      (keys joined).forM (checkParts fuel · joined)

/-- The entries of the table under a key.  If it has several parts, they are put together and
checked. -/
def wholeTable : (fuel : Nat) → String → List Entry → Except Fault (List Entry)
  | 0, _, _ => .error .malformed
  | fuel + 1, key, entries =>
    if partCount key entries ≤ 1 then
      .ok (tableParts key entries).flatten
    else do
      let joined ← joinParts (tableParts key entries)
      (keys joined).forM (checkParts fuel · joined)
      return joined

end

/-- Whether the parts of all tables could have been added one to the other. -/
def checkAll (fuel : Nat) (entries : List Entry) : Except Fault Unit :=
  (keys entries).forM (checkParts fuel · entries)

mutual

/-- The finished table.  `fuel` only has to exceed the depth. -/
def toTable : (fuel : Nat) → List Entry → Except Fault Table
  | 0, _ => .error .malformed
  | fuel + 1, entries =>
    (keys entries).mapM fun key => do
      if partCount key entries ≤ 1 then
        match latest? key entries with
        | some entry => return (key, ← toValue fuel entry.node)
        | none => throw .malformed
      else
        return (key, .table (← toTable fuel (← wholeTable fuel key entries)))

/-- The finished value. -/
def toValue : (fuel : Nat) → Node → Except Fault Value
  | 0, _ => .error .malformed
  | _, .value value => .ok value
  | fuel + 1, .table _ entries => (toTable fuel entries).map .table
  | fuel + 1, .tables elements => (elements.mapM (toTable fuel)).map fun tables =>
      .array (tables.map .table)

end

/-- A value under a key of one or more parts, of which all but the last one stand for tables. -/
def keyedEntry (value : Value) : List String → Option Entry
  | [] => none
  | [key] => some (.mk key false (.value value))
  | key :: keys => (keyedEntry value keys).map fun inner => .mk key true (.table .mentioned [inner])

end ResourceLiterals.Toml
