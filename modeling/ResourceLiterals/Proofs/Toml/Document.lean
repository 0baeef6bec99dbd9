import ResourceLiterals.Proofs.Toml.Entries
import ResourceLiterals.Proofs.Toml.Source
import ResourceLiterals.Toml.Document

/-!
# What is read is proper

All values that the reader of this library reads are proper, and so are all values in what its
tables under construction have collected, statement by statement.  So every table that `parse` gives
is proper.  Of any other reader that has to be assumed.

* `readsProperly` is about values, `readStatements_sound` about statements.
* `Builder.Sound` is what all statements preserve, and all tables that are closed.
* `properReader`: nothing is absent in a table that is read, and no key stands twice.
* `proper_of_load`: with such a reader this is so for every table that is loaded.
-/

namespace ResourceLiterals.Toml

variable {chars rest : List Char} {value : Value} {fuel : Nat} {table : Table} {entry : Entry}

/-! ## Values -/

theorem readNumber_proper {token : List Char} (h : readNumber token = some value) :
    Proper value := by
  obtain ⟨-, h⟩ := Option.ite_none_left_eq_some.mp h
  obtain ⟨-, h⟩ := Option.ite_none_left_eq_some.mp h
  -- What the sign is does not matter here, but the case split below would begin with it.
  generalize (if token.head? = some '+' ∨ token.head? = some '-' then token.drop 1 else token) =
    body at h
  generalize (if token.head? = some '+' ∨ token.head? = some '-' then token.take 1 else []) =
    sign at h
  split at h
  case h_1 =>
    obtain ⟨number, -, rfl⟩ := Option.map_eq_some_iff.mp h
    exact .integer number
  case h_2 =>
    dsimp only at h
    split at h
    case h_1 number _ =>
      obtain rfl := Option.some.inj h
      exact .integer number
    case h_2 =>
      obtain ⟨-, h⟩ := Option.ite_none_right_eq_some.mp h
      obtain ⟨number, -, rfl⟩ := Option.map_eq_some_iff.mp h
      exact .float number

theorem readToken_proper (h : readToken chars = .ok (value, rest)) : Proper value := by
  rw [readToken] at h
  dsimp only at h
  split at h
  · split at h
    · cases h
      exact .moment _
    · exact nomatch h
  · split at h
    · cases h
      exact .moment _
    · split at h
      case h_1 hnumber =>
        cases h
        exact readNumber_proper hnumber
      case h_2 => exact nomatch h

theorem readScalar_proper (h : readScalar chars = .ok (value, rest)) : Proper value := by
  rw [readScalar.eq_def] at h
  split at h
  · exact nomatch h
  · split at h
    · obtain ⟨⟨text, left⟩, -, hvalue⟩ := exists_of_map_eq_ok h
      cases hvalue
      exact .string text
    · split at h
      · exact readToken_proper h
      · split at h
        · cases h
          exact .boolean true
        · cases h
          exact .boolean false
        · exact nomatch h

/-- All values that are read are proper, by themselves and in arrays and tables. -/
structure ReadsProperly (fuel : Nat) : Prop where
  value : ∀ depth chars value rest, readValue fuel depth chars = .ok (value, rest) → Proper value
  items : ∀ depth complete chars items rest,
    readItems fuel depth complete chars = .ok (items, rest) → ∀ item ∈ items, Proper item
  inline : ∀ depth complete entries chars result rest, AllSound entries →
    readInline fuel depth complete entries chars = .ok (result, rest) → AllSound result

namespace ReadsProperly

variable {depth : Nat} {complete : Bool} {items : List Value} {entries result : List Entry}

theorem readValue (ih : ReadsProperly fuel)
    (h : readValue (fuel + 1) depth chars = .ok (value, rest)) : Proper value := by
  rw [Toml.readValue.eq_def] at h
  dsimp only at h
  split at h
  case h_1 =>
    obtain ⟨⟨items, left⟩, hitems, hvalue⟩ := exists_of_map_eq_ok h
    cases hvalue
    exact .array (ih.items _ _ _ _ _ hitems)
  case h_2 =>
    obtain ⟨⟨entries, left⟩, hentries, h⟩ := exists_of_bind_eq_ok h
    obtain ⟨table, htable, h⟩ := exists_of_bind_eq_ok h
    cases h
    have hsound : AllSound entries := ih.inline _ _ _ _ _ _ allSound_nil hentries
    exact (finishesProperly fuel).table _ _ hsound (eq_ok_of_mapError_eq_ok htable)
  case h_3 => exact readScalar_proper (eq_ok_of_mapError_eq_ok h)

theorem readItems (ih : ReadsProperly fuel)
    (h : readItems (fuel + 1) depth complete chars = .ok (items, rest)) :
    ∀ item ∈ items, Proper item := by
  rw [Toml.readItems] at h
  split at h
  case h_1 => exact nomatch h
  case h_2 => exact nomatch h
  case h_3 =>
    cases h
    exact List.forall_mem_nil _
  case h_4 =>
    split at h
    · split at h
      · exact ih.items _ _ _ _ _ h
      · exact nomatch h
    · split at h
      case h_1 =>
        -- A bracket inside of a table ends the array around it as well.
        cases h
        exact List.forall_mem_nil _
      case h_2 => exact nomatch h
      case h_3 item left hitem =>
        obtain ⟨⟨others, left⟩, hothers, hitems⟩ := exists_of_map_eq_ok h
        cases hitems
        exact List.forall_mem_cons.mpr ⟨ih.value _ _ _ _ hitem, ih.items _ _ _ _ _ hothers⟩

theorem readInline (ih : ReadsProperly fuel) (hentries : AllSound entries)
    (h : readInline (fuel + 1) depth complete entries chars = .ok (result, rest)) :
    AllSound result := by
  rw [Toml.readInline] at h
  split at h
  case h_1 => exact nomatch h
  case h_2 => exact nomatch h
  case h_3 =>
    cases h
    exact hentries
  case h_4 =>
    split at h
    · split at h
      · exact ih.inline _ _ _ _ _ _ hentries h
      · exact nomatch h
    · obtain ⟨⟨key, afterKey⟩, -, h⟩ := exists_of_bind_eq_ok h
      obtain ⟨afterEquals, -, h⟩ := exists_of_bind_eq_ok h
      obtain ⟨⟨value, left⟩, hvalue, h⟩ := exists_of_bind_eq_ok h
      dsimp only at h
      split at h
      case h_1 entry hentry =>
        obtain ⟨inserted, hinserted, h⟩ := exists_of_bind_eq_ok h
        have hsound : entry.node.Sound := keyedEntry_sound (ih.value _ _ _ _ hvalue) hentry
        have hnext : AllSound inserted :=
          insert_sound hentries hsound (eq_ok_of_mapError_eq_ok hinserted)
        exact ih.inline _ _ _ _ _ _ hnext h
      case h_2 => exact nomatch h

end ReadsProperly

theorem readsProperly (fuel : Nat) : ReadsProperly fuel := by
  induction fuel with
  | zero =>
    constructor
    case value => exact fun _ _ _ _ h => nomatch h
    case items => exact fun _ _ _ _ _ h => nomatch h
    case inline => exact fun _ _ _ _ _ _ _ h => nomatch h
  | succ fuel ih =>
    constructor
    case value => exact fun _ _ _ _ h => ih.readValue h
    case items => exact fun _ _ _ _ _ h => ih.readItems h
    case inline => exact fun _ _ _ _ _ _ hentries h => ih.readInline hentries h

/-! ## Statements -/

/-- The value in a statement, if there is one, is proper. -/
def Statement.Sound : Statement → Prop
  | .header .. => True
  | .entry _ value => Proper value

variable {statement : Statement}

theorem readHeader_sound (h : readHeader chars = .ok (statement, rest)) : statement.Sound := by
  rw [readHeader.eq_def] at h
  split at h
  all_goals
    obtain ⟨⟨key, left⟩, -, hstatement⟩ := exists_of_map_eq_ok h
    cases hstatement
    trivial

theorem readEntry_sound (h : readEntry fuel chars = .ok (statement, rest)) : statement.Sound := by
  obtain ⟨⟨key, afterKey⟩, -, h⟩ := exists_of_bind_eq_ok h
  obtain ⟨afterEquals, -, h⟩ := exists_of_bind_eq_ok h
  split at h
  case h_1 value left hvalue =>
    cases h
    exact (readsProperly fuel).value _ _ _ _ hvalue
  case h_2 => exact nomatch h
  case h_3 => exact nomatch h

theorem readStatements_sound (fuel : Nat) (chars : List Char) :
    ∀ statement ∈ (readStatements fuel chars).1, statement.Sound := by
  induction fuel generalizing chars with
  | zero => exact List.forall_mem_nil _
  | succ fuel ih =>
    rw [readStatements]
    split
    case h_1 => exact List.forall_mem_nil _
    case h_2 => exact ih _
    case h_3 =>
      split
      · exact List.forall_mem_nil _
      · exact ih _
    case h_4 =>
      split
      case h_1 => exact List.forall_mem_nil _
      case h_2 statement left hread =>
        have hstatement : statement.Sound := by
          split at hread
          · exact readHeader_sound hread
          · exact readEntry_sound hread
        split
        · split
          · exact List.forall_mem_singleton.mpr hstatement
          · exact List.forall_mem_nil _
        · exact List.forall_mem_cons.mpr ⟨hstatement, ih _⟩

/-! ## Open tables -/

/-- All values in what an open table has collected are proper. -/
structure OpenTable.Sound (table : OpenTable) : Prop where
  entries : AllSound table.entries
  finished : ∀ element ∈ table.finished, AllSound element

namespace OpenTable

variable {table : OpenTable}

theorem Sound.node (h : table.Sound) : table.node.Sound := by
  rw [OpenTable.node]
  split
  · exact .tables (List.forall_mem_append.mpr
      ⟨h.finished, List.forall_mem_singleton.mpr h.entries⟩)
  · exact .table h.entries

theorem Sound.entry? (h : table.Sound) (hentry : table.entry? = some entry) :
    entry.node.Sound := by
  rw [OpenTable.entry?] at hentry
  generalize table.origin = origin, table.names = names at hentry
  induction names generalizing origin entry with
  | nil => exact nomatch hentry
  | cons name names ih =>
    cases names with
    | nil =>
      obtain rfl := Option.some.inj hentry
      exact h.node
    | cons next rest =>
      obtain ⟨inner, hinner, rfl⟩ := Option.map_eq_some_iff.mp hentry
      exact .table (allSound_singleton_iff.mpr (ih .mentioned hinner))

end OpenTable

/-- All values in what has been collected are proper. -/
structure Builder.Sound (builder : Builder) : Prop where
  root : AllSound builder.root
  stack : ∀ table ∈ builder.stack, table.Sound

namespace Builder

variable {builder next : Builder}

theorem Sound.add (h : builder.Sound) (hentry : entry.node.Sound)
    (hadd : add fuel builder entry = .ok next) : next.Sound := by
  rw [Builder.add] at hadd
  split at hadd
  case h_1 =>
    split at hadd
    case h_1 root hroot =>
      obtain rfl := Except.ok.inj hadd
      exact ⟨insert_sound h.root hentry hroot, h.stack⟩
    case h_2 => exact nomatch hadd
  case h_2 table outer hstack =>
    obtain ⟨htable, houter⟩ := List.forall_mem_cons.mp (hstack ▸ h.stack)
    obtain ⟨entries, hentries, rfl⟩ := exists_of_map_eq_ok hadd
    have hinserted : AllSound entries := insert_sound htable.entries hentry hentries
    exact ⟨h.root, List.forall_mem_cons.mpr ⟨⟨hinserted, htable.finished⟩, houter⟩⟩

theorem Sound.close (h : builder.Sound) (hclose : close fuel builder = .ok next) : next.Sound := by
  rw [Builder.close] at hclose
  split at hclose
  case h_1 =>
    obtain rfl := Except.ok.inj hclose
    exact h
  case h_2 table outer hstack =>
    obtain ⟨htable, houter⟩ := List.forall_mem_cons.mp (hstack ▸ h.stack)
    obtain ⟨-, -, hclose⟩ := exists_of_bind_eq_ok hclose
    split at hclose
    case h_1 entry hentry =>
      have hrest : Sound { builder with stack := outer } := ⟨h.root, houter⟩
      exact hrest.add (htable.entry? hentry) hclose
    case h_2 => exact nomatch hclose

theorem Sound.closeWhile {p : OpenTable → Bool} {count : Nat} (h : builder.Sound)
    (hclose : closeWhile fuel p count builder = .ok next) : next.Sound := by
  induction count generalizing builder with
  | zero =>
    obtain rfl := Except.ok.inj hclose
    exact h
  | succ count ih =>
    rw [Builder.closeWhile] at hclose
    split at hclose
    case h_1 =>
      obtain rfl := Except.ok.inj hclose
      exact h
    case h_2 =>
      split at hclose
      · obtain ⟨closed, hclosed, hclose⟩ := exists_of_bind_eq_ok hclose
        exact ih (h.close hclosed) hclose
      · obtain rfl := Except.ok.inj hclose
        exact h

theorem Sound.openTable {element : Bool} {key : List String} (h : builder.Sound)
    (hopen : openTable fuel builder element key = .ok next) : next.Sound := by
  obtain ⟨around, haround, hopen⟩ := exists_of_bind_eq_ok hopen
  have hsound : around.Sound := h.closeWhile haround
  have hnew : ∀ path names origin,
      OpenTable.Sound ⟨path, names, element, origin, [], []⟩ :=
    fun _ _ _ => ⟨allSound_nil, List.forall_mem_nil _⟩
  dsimp only at hopen
  split at hopen
  case h_1 =>
    obtain rfl := Except.ok.inj hopen
    exact ⟨hsound.root, List.forall_mem_singleton.mpr (hnew _ _ _)⟩
  case h_2 table outer hstack =>
    obtain ⟨htable, houter⟩ := List.forall_mem_cons.mp (hstack ▸ hsound.stack)
    split at hopen
    · obtain ⟨-, -, hopen⟩ := exists_of_bind_eq_ok hopen
      obtain rfl := Except.ok.inj hopen
      have hfinished := List.forall_mem_append.mpr
        ⟨htable.finished, List.forall_mem_singleton.mpr htable.entries⟩
      exact ⟨hsound.root, List.forall_mem_cons.mpr ⟨⟨allSound_nil, hfinished⟩, houter⟩⟩
    · obtain rfl := Except.ok.inj hopen
      exact ⟨hsound.root, List.forall_mem_cons.mpr ⟨hnew _ _ _, hsound.stack⟩⟩

theorem Sound.take (h : builder.Sound) (hstatement : statement.Sound)
    (htake : take fuel builder statement = .ok next) : next.Sound := by
  cases statement with
  | header element key => exact h.openTable htake
  | entry key value =>
    rw [Builder.take] at htake
    split at htake
    case h_1 entry hentry => exact h.add (keyedEntry_sound hstatement hentry) htake
    case h_2 => exact nomatch htake

theorem sound_empty : Builder.empty.Sound := ⟨allSound_nil, List.forall_mem_nil _⟩

end Builder

/-! ## Documents -/

theorem proper_of_parse (h : parse chars = .ok table) : Proper (.table table) := by
  have hstatements := readStatements_sound (fuelFor chars) chars
  obtain ⟨builder, hbuilder, h⟩ := exists_of_bind_eq_ok h
  have hsound : builder.Sound :=
    foldlM_preserves (P := Builder.Sound)
      (fun statement hmem _ _ hstate htake => hstate.take (hstatements statement hmem) htake)
      Builder.sound_empty hbuilder
  dsimp only at h
  split at h
  case h_1 => exact nomatch h
  case h_2 =>
    obtain ⟨closed, hclosed, h⟩ := exists_of_bind_eq_ok h
    exact (finishesProperly _).table _ _ (hsound.closeWhile hclosed).root h

/-- A reader in whose tables nothing is absent and no key stands twice. -/
def ProperReader [Reader] : Prop :=
  ∀ chars table, Reader.read chars = .ok table → Proper (.table table)

/-- The reader of this library is one. -/
theorem properReader : ProperReader := fun _ _ => proper_of_parse

theorem proper_of_load [Reader] (hreader : ProperReader) {data : Bytes}
    (h : load data = .ok table) : Proper (.table table) := by
  rcases load_eq_ok_iff.mp h with ⟨text, -, hread⟩ | ⟨-, rfl⟩
  · exact hreader _ _ hread
  · exact .table List.nodup_nil (List.forall_mem_nil _)

end ResourceLiterals.Toml
