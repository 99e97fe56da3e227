import Mathlib.Data.List.Basic
import StealthHub.Data.OrderedMap
import StealthHub.Data.Result
import StealthHub.Data.Terminated
import StealthHub.Data.Text

set_option autoImplicit false

namespace StealthHub.Compatibility

open Text Terminated

def DURABLE_TABLES : List String :=
  ["admins", "admin_sessions", "users", "settings", "secret_values", "protocol_profiles",
    "reconcile_state", "adapter_state", "schema_migrations", "client_transport_pools",
    "client_transport_pool_members", "client_routing_rules", "routing_rule_sets",
    "routing_rule_entries", "routing_rule_sources", "runtime_user_sync", "user_lifecycle_state",
    "bootstrap_state", "client_dns_policy"]

inductive SqliteValue
  | null
  | integer (value : Int64)
  | real (bits : UInt64)
  | text (value : String)
  | blob (bytes : List UInt8)
  deriving DecidableEq

def asBytes (s : String) : List UInt8 := s.toList.flatMap String.utf8EncodeChar

def leBytes : ℕ → ℕ → List UInt8
  | 0, _ => []
  | width + 1, n => UInt8.ofNat n :: leBytes width (n / 256)

def SqliteValue.typeName (nullType : String) : SqliteValue → String
  | null => nullType
  | integer _ => "INTEGER"
  | real _ => "REAL"
  | text _ => "TEXT"
  | blob _ => "BLOB"

def SqliteValue.payload : SqliteValue → List UInt8
  | null => [0xff]
  | integer value => leBytes 8 value.toUInt64.toNat
  | real bits => leBytes 8 bits.toNat
  | text value => asBytes value
  | blob bytes => bytes

/-- A table: its rows in the order of their ids, each with what it has under a column, and the
names of the types of its columns. -/
structure StoredTable where
  columns : List String
  rows : List (String → SqliteValue)
  nullType : String → String
  nullType_plain : ∀ column, (0 : UInt8) ∉ asBytes (nullType column)

/-- The rows that are read with a column list. -/
def StoredTable.read (table : StoredTable) (columns : List String) : List (List SqliteValue) :=
  table.rows.map fun row ↦ columns.map row

structure TableFingerprint where
  rowCount : ℕ
  columns : List String
  sha256 : String

def validateIdentifier (value : String) : Except String Unit :=
  if isEmpty value || !value.toList.all fun c ↦ isAsciiAlphanumeric c || c == '_' then
    .error "invalid SQLite identifier in compatibility snapshot"
  else .ok ()

def StoredTable.valueBytes (table : StoredTable) (row : String → SqliteValue) (column : String) :
    List UInt8 :=
  asBytes ((row column).typeName (table.nullType column)) ++ [0] ++ (row column).payload ++ [0]

def StoredTable.hashed (table : StoredTable) (columns : List String) : List UInt8 :=
  columns.flatMap (fun column ↦ asBytes column ++ [0]) ++
    table.rows.flatMap fun row ↦ columns.flatMap (table.valueBytes row)

def HEX : List Char :=
  ['0', '1', '2', '3', '4', '5', '6', '7', '8', '9', 'a', 'b', 'c', 'd', 'e', 'f']

def hexByte (byte : UInt8) : List Char :=
  [HEX.getD (byte.toNat / 16) '0', HEX.getD (byte.toNat % 16) '0']

def hexDigest (bytes : List UInt8) : String := String.ofList (bytes.flatMap hexByte)

def fingerprintTable (sha256 : List UInt8 → List UInt8) (table : StoredTable) (name : String)
    (columns : List String) : Except String TableFingerprint := do
  validateIdentifier name
  if columns.isEmpty then throw "durable table has no columns"
  else
    columns.forM validateIdentifier
    return ⟨table.rows.length, columns, hexDigest (sha256 (table.hashed columns))⟩

structure DatabaseSnapshot where
  tables : OrderedMap String TableFingerprint

def columnNames (table : StoredTable) (name : String) : Except String (List String) := do
  validateIdentifier name
  table.columns.forM validateIdentifier
  return table.columns

def snapshotTable (sha256 : List UInt8 → List UInt8) (db : String → Option StoredTable)
    (baseline : Option DatabaseSnapshot) (tables : OrderedMap String TableFingerprint)
    (name : String) : Except String (OrderedMap String TableFingerprint) :=
  match db name with
  | none => .ok tables
  | some table => do
    let own ← columnNames table name
    let columns := ((baseline.bind (·.tables.get? name)).map (·.columns)).getD own
    return tables.insert name (← fingerprintTable sha256 table name columns)

def snapshot (sha256 : List UInt8 → List UInt8) (db : String → Option StoredTable)
    (baseline : Option DatabaseSnapshot) : Except String DatabaseSnapshot :=
  (DURABLE_TABLES.foldlM (snapshotTable sha256 db baseline) .empty).map DatabaseSnapshot.mk

def preservesBaseline (before after : DatabaseSnapshot) : Bool :=
  before.tables.entries.all fun entry ↦
    (after.tables.get? entry.1).any fun actual ↦
      actual.rowCount = entry.2.rowCount && entry.2.columns.isPrefixOf actual.columns &&
        actual.sha256 = entry.2.sha256

variable {n m width : ℕ} {value value' : SqliteValue} {nullType column name : String}
variable {table table' : StoredTable} {columns : List String} {fact fact' : TableFingerprint}
variable {sha256 : List UInt8 → List UInt8}

theorem leBytes_length : (leBytes width n).length = width := by
  induction width generalizing n with
  | zero => rfl
  | succ width ih => rw [leBytes, List.length_cons, ih]

theorem leBytes_inj (hn : n < 256 ^ width) (hm : m < 256 ^ width)
    (h : leBytes width n = leBytes width m) : n = m := by
  induction width generalizing n m with
  | zero => omega
  | succ width ih =>
    rw [Nat.pow_succ, Nat.mul_comm] at hn hm
    obtain ⟨hbyte, hrest⟩ := List.cons_eq_cons.mp h
    have hquotient := ih (Nat.div_lt_of_lt_mul hn) (Nat.div_lt_of_lt_mul hm) hrest
    have hremainder := congrArg UInt8.toNat hbyte
    rw [UInt8.toNat_ofNat', UInt8.toNat_ofNat'] at hremainder
    omega

theorem hexByte_inj {b b' : UInt8} (h : hexByte b = hexByte b') : b = b' := by
  have hread : ∀ n : Fin 16, HEX.findIdx? (· = HEX.getD n.val '0') = some n.val := by decide
  have hdigit : ∀ {i j : ℕ}, i < 16 → j < 16 → HEX.getD i '0' = HEX.getD j '0' → i = j := by
    intro i j hi hj heq
    have hi' := hread ⟨i, hi⟩
    have hj' := hread ⟨j, hj⟩
    simp only [heq] at hi'
    exact Option.some.inj (hi'.symm.trans hj')
  obtain ⟨hhigh, hlow⟩ := List.cons_eq_cons.mp h
  have hb := b.toNat_lt
  have hb' := b'.toNat_lt
  have hquotient := hdigit (by omega) (by omega) hhigh
  have hremainder := hdigit (by omega) (by omega) (List.cons_eq_cons.mp hlow).1
  exact UInt8.toNat_inj.mp (by omega)

theorem hexDigest_injective : Function.Injective hexDigest := by
  intro bytes bytes' h
  have hlists : bytes.flatMap hexByte = bytes'.flatMap hexByte := by
    simpa [hexDigest] using congrArg String.toList h
  clear h
  induction bytes generalizing bytes' with
  | nil =>
    cases bytes' with
    | nil => rfl
    | cons b' bytes' => cases hlists
  | cons b bytes ih =>
    cases bytes' with
    | nil => cases hlists
    | cons b' bytes' =>
      rw [List.flatMap_cons, List.flatMap_cons] at hlists
      obtain ⟨hbyte, hrest⟩ := List.append_inj hlists rfl
      rw [hexByte_inj hbyte, ih hrest]

theorem asBytes_injective : Function.Injective asBytes := by
  intro s t h
  have hencoded : s.toList.utf8Encode = t.toList.utf8Encode := congrArg List.toByteArray h
  rw [← String.toByteArray_ofList, ← String.toByteArray_ofList, String.toByteArray_inj,
    String.ofList_toList, String.ofList_toList] at hencoded
  exact hencoded

theorem typeName_plain (h : (0 : UInt8) ∉ asBytes nullType) :
    (0 : UInt8) ∉ asBytes (value.typeName nullType) := by
  cases value with
  | null => exact h
  | integer =>
    show (0 : UInt8) ∉ asBytes "INTEGER"
    decide
  | real =>
    show (0 : UInt8) ∉ asBytes "REAL"
    decide
  | text =>
    show (0 : UInt8) ∉ asBytes "TEXT"
    decide
  | blob =>
    show (0 : UInt8) ∉ asBytes "BLOB"
    decide

/-- The values of a table as fields with a NUL behind each. -/
def StoredTable.fields (table : StoredTable) (columns : List String) :
    List (Field (0 : UInt8)) :=
  table.rows.flatMap fun row ↦ columns.map fun column ↦
    { name := asBytes ((row column).typeName (table.nullType column))
      payload := (row column).payload
      plain := typeName_plain (table.nullType_plain column) }

theorem hashed_eq : table.hashed columns =
    columns.flatMap (fun column ↦ asBytes column ++ [0]) ++ spell (table.fields columns) := by
  rw [StoredTable.hashed, StoredTable.fields, spell, List.flatMap_assoc]
  congr 2
  funext row
  rw [List.flatMap_map]
  congr 1
  funext column
  simp [StoredTable.valueBytes, Field.spell]

theorem fields_length : (table.fields columns).length = table.rows.length * columns.length := by
  simp [StoredTable.fields, List.length_flatMap]

theorem fingerprintTable_ok (h : fingerprintTable sha256 table name columns = .ok fact) :
    fact = ⟨table.rows.length, columns, hexDigest (sha256 (table.hashed columns))⟩ := by
  obtain ⟨-, -, h⟩ := Except.bind_eq_ok.mp h
  obtain ⟨-, h⟩ := Except.guard_eq_ok.mp h
  obtain ⟨-, -, h⟩ := Except.bind_eq_ok.mp h
  exact (Except.ok.inj h).symm

/-- Tables of other rows that one byte text stands for: the values are spelled alike one by one,
or one value takes up what others are, from a NUL inside it on. -/
def Confusable (columns : List String) (table table' : StoredTable) : Prop :=
  table.rows.length = table'.rows.length ∧ table.read columns ≠ table'.read columns ∧
    (table.fields columns = table'.fields columns ∨
      Shifted (table.fields columns) (table'.fields columns) ∨
        Shifted (table'.fields columns) (table.fields columns))

theorem fingerprint_iff (hinjective : Function.Injective sha256)
    (h : fingerprintTable sha256 table name columns = .ok fact)
    (h' : fingerprintTable sha256 table' name columns = .ok fact') :
    (fact.rowCount = fact'.rowCount ∧ fact.sha256 = fact'.sha256 →
      table.read columns = table'.read columns) ↔ ¬Confusable columns table table' := by
  obtain rfl := fingerprintTable_ok h
  obtain rfl := fingerprintTable_ok h'
  have hbytes : hexDigest (sha256 (table.hashed columns)) =
      hexDigest (sha256 (table'.hashed columns)) ↔
        spell (table.fields columns) = spell (table'.fields columns) := by
    rw [hexDigest_injective.eq_iff, hinjective.eq_iff, hashed_eq, hashed_eq,
      List.append_right_inj]
  dsimp only
  rw [hbytes, Confusable]
  constructor
  · rintro hsame ⟨hcount, hne, hfields⟩
    have hlength : (table.fields columns).length = (table'.fields columns).length := by
      rw [fields_length, fields_length, hcount]
    exact hne (hsame ⟨hcount, (spell_inj_iff hlength).mpr hfields⟩)
  · rintro hnot ⟨hcount, hspell⟩
    have hlength : (table.fields columns).length = (table'.fields columns).length := by
      rw [fields_length, fields_length, hcount]
    by_contra hne
    exact hnot ⟨hcount, hne, (spell_inj_iff hlength).mp hspell⟩

def STORAGE_CLASSES : List String := ["INTEGER", "REAL", "TEXT", "BLOB"]

/-- No text and no blob has a NUL, and the name of a NULL is that of no storage class. -/
structure PlainContents (columns : List String) (table : StoredTable) : Prop where
  text : ∀ row ∈ table.rows, ∀ column ∈ columns, ∀ value, row column = .text value →
    (0 : UInt8) ∉ asBytes value
  blob : ∀ row ∈ table.rows, ∀ column ∈ columns, ∀ bytes, row column = .blob bytes →
    (0 : UInt8) ∉ bytes
  nullType : ∀ column ∈ columns, table.nullType column ∉ STORAGE_CLASSES

theorem typeName_cases {nullType' : String} (hnull : nullType ∉ STORAGE_CLASSES)
    (hnull' : nullType' ∉ STORAGE_CLASSES)
    (hname : value.typeName nullType = value'.typeName nullType') :
    (value = .null ∧ value' = .null) ∨
      (∃ i i', value = .integer i ∧ value' = .integer i') ∨
        (∃ bits bits', value = .real bits ∧ value' = .real bits') ∨
          (∃ text text', value = .text text ∧ value' = .text text') ∨
            ∃ bytes bytes', value = .blob bytes ∧ value' = .blob bytes' := by
  have hstored : ∀ (nullType : String) (value : SqliteValue), value ≠ .null →
      value.typeName nullType ∈ STORAGE_CLASSES := by
    intro nullType value hne
    cases value with
    | null => exact absurd rfl hne
    | integer | real | text | blob => simp [SqliteValue.typeName, STORAGE_CLASSES]
  by_cases hvalue : value = .null
  · subst hvalue
    by_cases hvalue' : value' = .null
    · exact .inl ⟨rfl, hvalue'⟩
    · have hclass := hstored nullType' value' hvalue'
      rw [← hname] at hclass
      exact absurd hclass hnull
  · by_cases hvalue' : value' = .null
    · subst hvalue'
      have hclass := hstored nullType value hvalue
      rw [hname] at hclass
      exact absurd hclass hnull'
    · cases value <;> cases value' <;>
        simp [SqliteValue.typeName] at hname hvalue hvalue' ⊢

theorem value_unique {nullType' : String} (hnull : nullType ∉ STORAGE_CLASSES)
    (hnull' : nullType' ∉ STORAGE_CLASSES)
    (hname : value.typeName nullType = value'.typeName nullType')
    (hpayload : value.payload = value'.payload) : value = value' := by
  rcases typeName_cases hnull hnull' hname with ⟨rfl, rfl⟩ | ⟨i, i', rfl, rfl⟩ |
    ⟨bits, bits', rfl, rfl⟩ | ⟨text, text', rfl, rfl⟩ | ⟨bytes, bytes', rfl, rfl⟩
  · rfl
  · have hsame := leBytes_inj i.toUInt64.toNat_lt i'.toUInt64.toNat_lt hpayload
    exact congrArg (SqliteValue.integer ∘ Int64.ofUInt64) (UInt64.toNat_inj.mp hsame)
  · rw [UInt64.toNat_inj.mp (leBytes_inj bits.toNat_lt bits'.toNat_lt hpayload)]
  · rw [asBytes_injective hpayload]
  · exact congrArg _ hpayload

theorem payload_not_extended {nullType' : String} {x : List UInt8}
    (hnull : nullType ∉ STORAGE_CLASSES) (hnull' : nullType' ∉ STORAGE_CLASSES)
    (htext : ∀ text, value' = .text text → (0 : UInt8) ∉ asBytes text)
    (hblob : ∀ bytes, value' = .blob bytes → (0 : UInt8) ∉ bytes)
    (hname : value.typeName nullType = value'.typeName nullType') :
    value'.payload ≠ value.payload ++ 0 :: x := by
  intro hpayload
  have hlength := congrArg List.length hpayload
  have hmem : (0 : UInt8) ∈ value'.payload := by
    rw [hpayload]
    exact List.mem_append_right _ List.mem_cons_self
  rw [List.length_append, List.length_cons] at hlength
  rcases typeName_cases hnull hnull' hname with ⟨rfl, rfl⟩ | ⟨i, i', rfl, rfl⟩ |
    ⟨bits, bits', rfl, rfl⟩ | ⟨text, text', rfl, rfl⟩ | ⟨bytes, bytes', rfl, rfl⟩
  · omega
  · simp only [SqliteValue.payload, leBytes_length] at hlength
    omega
  · simp only [SqliteValue.payload, leBytes_length] at hlength
    omega
  · exact htext text' rfl hmem
  · exact hblob bytes' rfl hmem

theorem mem_fields {field : Field (0 : UInt8)} (h : field ∈ table.fields columns) :
    ∃ row ∈ table.rows, ∃ column ∈ columns,
      field.name = asBytes ((row column).typeName (table.nullType column)) ∧
        field.payload = (row column).payload := by
  obtain ⟨row, hrow, hfield⟩ := List.mem_flatMap.mp h
  obtain ⟨column, hcolumn, rfl⟩ := List.mem_map.mp hfield
  exact ⟨row, hrow, column, hcolumn, rfl, rfl⟩

theorem PlainContents.not_shifted (h : PlainContents columns table)
    (h' : PlainContents columns table') :
    ¬Shifted (table.fields columns) (table'.fields columns) := by
  rintro ⟨before, field, field', rest, rest', x, hfields, hfields', hname, hpayload, -⟩
  obtain ⟨row, hrow, column, hcolumn, hrowName, hrowPayload⟩ := mem_fields
    (hfields ▸ List.mem_append_right before List.mem_cons_self : field ∈ table.fields columns)
  obtain ⟨row', hrow', column', hcolumn', hrowName', hrowPayload'⟩ := mem_fields
    (hfields' ▸ List.mem_append_right before List.mem_cons_self : field' ∈ table'.fields columns)
  rw [hrowName, hrowName'] at hname
  rw [hrowPayload, hrowPayload'] at hpayload
  exact payload_not_extended (h.nullType column hcolumn) (h'.nullType column' hcolumn')
    (h'.text row' hrow' column' hcolumn') (h'.blob row' hrow' column' hcolumn')
    (asBytes_injective hname) hpayload

theorem read_of_fields {rows rows' : List (String → SqliteValue)}
    {spelled spelled' : (String → SqliteValue) → String → Field (0 : UInt8)}
    (hunique : ∀ row ∈ rows, ∀ row' ∈ rows', ∀ column ∈ columns,
      spelled row column = spelled' row' column → row column = row' column)
    (hlength : rows.length = rows'.length)
    (h : (rows.flatMap fun row ↦ columns.map (spelled row)) =
      rows'.flatMap fun row ↦ columns.map (spelled' row)) :
    (rows.map fun row ↦ columns.map row) = rows'.map fun row ↦ columns.map row := by
  induction rows generalizing rows' with
  | nil =>
    rw [List.eq_nil_of_length_eq_zero hlength.symm]
  | cons row rows ih =>
    obtain ⟨row', rows', rfl⟩ := List.exists_cons_of_length_eq_add_one hlength.symm
    rw [List.flatMap_cons, List.flatMap_cons] at h
    obtain ⟨hrow, hrows⟩ := List.append_inj h (by rw [List.length_map, List.length_map])
    have hfirst : columns.map row = columns.map row' := by
      refine List.map_congr_left fun column hcolumn ↦ ?_
      exact hunique row List.mem_cons_self row' List.mem_cons_self column hcolumn
        (List.map_inj_left.mp hrow column hcolumn)
    have hrest : (rows.map fun row ↦ columns.map row) = rows'.map fun row ↦ columns.map row := by
      refine ih (fun row hmem row' hmem' ↦ ?_) (Nat.succ.inj hlength) hrows
      exact hunique row (List.mem_cons_of_mem _ hmem) row' (List.mem_cons_of_mem _ hmem')
    rw [List.map_cons, List.map_cons, hfirst, hrest]

theorem PlainContents.not_confusable (h : PlainContents columns table)
    (h' : PlainContents columns table') : ¬Confusable columns table table' := by
  rintro ⟨hcount, hne, hfields | hshifted | hshifted⟩
  · refine hne (read_of_fields (fun row hrow row' hrow' column hcolumn hsame ↦ ?_) hcount hfields)
    exact value_unique (h.nullType column hcolumn) (h'.nullType column hcolumn)
      (asBytes_injective (congrArg Field.name hsame)) (congrArg Field.payload hsame)
  · exact h.not_shifted h' hshifted
  · exact h'.not_shifted h hshifted

def Declared (type : String) : SqliteValue → Prop
  | .null => type = "INTEGER" ∨ type = "TEXT"
  | .integer _ => type = "INTEGER"
  | .text value => type = "TEXT" ∧ (0 : UInt8) ∉ asBytes value
  | .real _ | .blob _ => False

/-- Columns of integers and of texts, where no text has a NUL and a NULL is named by the type. -/
def DeclaredContents (columns : List String) (table : StoredTable) : Prop :=
  ∀ row ∈ table.rows, ∀ column ∈ columns, Declared (table.nullType column) (row column)

section declared

variable {type : String} {field field' : Field (0 : UInt8)}
variable {fields fields' : List (Field (0 : UInt8))}
variable {x : List UInt8}

theorem Declared.typeName (h : Declared type value) : value.typeName type = type := by
  cases value with
  | null => rfl
  | integer => exact h.symm
  | text => exact h.1.symm
  | real | blob => cases h

theorem Declared.type_cases (h : Declared type value) : type = "INTEGER" ∨ type = "TEXT" := by
  cases value with
  | null => exact h
  | integer => exact .inl h
  | text => exact .inr h.1
  | real | blob => cases h

theorem ff_not_mem_asBytes (text : String) : (0xff : UInt8) ∉ asBytes text := by
  intro h
  obtain ⟨c, -, hbyte⟩ := List.mem_flatMap.mp h
  have hvalue {n : ℕ} (hbyte : (0xff : UInt8) = UInt8.ofNat n) : n % 256 = 255 :=
    (UInt8.toNat_ofNat' (n := n)).symm.trans (congrArg UInt8.toNat hbyte).symm
  unfold String.utf8EncodeChar at hbyte
  simp only at hbyte
  split_ifs at hbyte with hone htwo hthree
  all_goals simp only [List.mem_cons, List.not_mem_nil, or_false] at hbyte
  · have := hvalue hbyte
    omega
  · rcases hbyte with h | h <;> have := hvalue h <;> omega
  · rcases hbyte with h | h | h <;> have := hvalue h <;> omega
  · rcases hbyte with h | h | h | h <;> have := hvalue h <;> omega

theorem Declared.null (h : Declared type value) (hpayload : value.payload = [0xff]) :
    value = .null := by
  cases value with
  | null => rfl
  | integer value =>
    have hlength := congrArg List.length hpayload
    rw [SqliteValue.payload, leBytes_length] at hlength
    cases hlength
  | text text =>
    have hmem : (0xff : UInt8) ∈ asBytes text := by
      rw [show asBytes text = [0xff] from hpayload]
      exact List.mem_singleton_self _
    exact absurd hmem (ff_not_mem_asBytes text)
  | real | blob => cases h

theorem Declared.unique (h : Declared type value) (h' : Declared type value')
    (hpayload : value.payload = value'.payload) : value = value' := by
  have hname {value : SqliteValue} (h : Declared type value) (hstored : value ≠ .null) :
      value.typeName "NULL" = type := by
    rw [← h.typeName]
    cases value with
    | null => exact absurd rfl hstored
    | integer | real | text | blob => rfl
  by_cases hvalue : value = .null
  · subst hvalue
    exact (h'.null hpayload.symm).symm
  · have hvalue' : value' ≠ .null := by
      intro hnull
      rw [hnull] at hpayload
      exact hvalue (h.null hpayload)
    have hclass : "NULL" ∉ STORAGE_CLASSES := by decide
    exact value_unique hclass hclass ((hname h hvalue).trans (hname h' hvalue').symm) hpayload

def DeclaredField (type : String) (field : Field (0 : UInt8)) : Prop :=
  field.name = asBytes type ∧ ∃ value, Declared type value ∧ field.payload = value.payload

theorem DeclaredField.type_cases (h : DeclaredField type field) :
    type = "INTEGER" ∨ type = "TEXT" := by
  obtain ⟨-, value, hvalue, -⟩ := h
  exact hvalue.type_cases

theorem DeclaredField.plain (h : DeclaredField "TEXT" field) : (0 : UInt8) ∉ field.payload := by
  obtain ⟨-, value, hvalue, hpayload⟩ := h
  rw [hpayload]
  cases value with
  | null => decide
  | integer => exact absurd hvalue (by rw [Declared]; decide)
  | text => exact hvalue.2
  | real | blob => cases hvalue

theorem DeclaredField.length (h : DeclaredField "INTEGER" field) :
    field.payload = [0xff] ∨ field.payload.length = 8 := by
  obtain ⟨-, value, hvalue, hpayload⟩ := h
  rw [hpayload]
  cases value with
  | null => exact .inl rfl
  | integer => exact .inr leBytes_length
  | text => exact absurd hvalue.1 (by decide)
  | real | blob => cases hvalue

theorem DeclaredField.extended (h : DeclaredField type field) (h' : DeclaredField type field')
    (hpayload : field'.payload = field.payload ++ 0 :: x) : x.length = 6 := by
  have hmem : (0 : UInt8) ∈ field'.payload :=
    hpayload ▸ List.mem_append_right _ List.mem_cons_self
  rcases h'.type_cases with rfl | rfl
  · have hlength := congrArg List.length hpayload
    rw [List.length_append, List.length_cons] at hlength
    rcases h'.length with hnull | hlong
    · rw [hnull] at hmem
      exact absurd hmem (by decide)
    · rcases h.length with hnull | hlong'
      · rw [hlong, hnull, List.length_singleton] at hlength
        omega
      · omega
  · exact absurd hmem h'.plain

theorem declared_fields (h : DeclaredContents columns table) {field : Field (0 : UInt8)}
    (hfield : field ∈ table.fields columns) : ∃ type, DeclaredField type field := by
  obtain ⟨row, hrow, column, hcolumn, hname, hpayload⟩ := mem_fields hfield
  have hdeclared := h row hrow column hcolumn
  exact ⟨_, hname.trans (congrArg asBytes hdeclared.typeName), _, hdeclared, hpayload⟩

theorem declared_names (h : DeclaredContents columns table) :
    (table.fields columns).map Field.name =
      (List.replicate table.rows.length (columns.map fun column ↦
        asBytes (table.nullType column))).flatten := by
  rw [StoredTable.fields, List.map_flatMap, ← List.map_const', List.flatMap_def]
  refine congrArg List.flatten (List.map_congr_left fun row hrow ↦ ?_)
  rw [List.map_map]
  exact List.map_congr_left fun column hcolumn ↦
    congrArg asBytes (h row hrow column hcolumn).typeName

theorem DeclaredField.name_length (h : DeclaredField type field) :
    field.name.length = 7 ∨ field.name.length = 4 ∧ type = "TEXT" := by
  rw [h.1]
  rcases h.type_cases with rfl | rfl
  · exact .inl (by decide)
  · exact .inr ⟨by decide, rfl⟩

theorem declared_not_spelled (hfields : ∀ field ∈ fields, ∃ type, DeclaredField type field)
    (hfields' : ∀ field ∈ fields', ∃ type, DeclaredField type field)
    (hnames : fields.map Field.name = fields'.map Field.name) (hx : x.length = 6) :
    spell fields ≠ x ++ 0 :: spell fields' := by
  intro h
  cases fields with
  | nil => exact absurd h.symm (List.append_ne_nil_of_right_ne_nil _ (List.cons_ne_nil _ _))
  | cons first rest =>
    obtain ⟨first', rest', rfl⟩ : ∃ first' rest', fields' = first' :: rest' :=
      List.exists_cons_of_ne_nil fun hnil ↦ by
        rw [hnil] at hnames
        cases hnames
    obtain ⟨hname, hnames⟩ := List.cons_eq_cons.mp hnames
    obtain ⟨type, hfirst⟩ := hfields first List.mem_cons_self
    have hbytes := hfirst.name_length
    rw [spell_cons] at h
    rcases append_stop_inj.mp h with ⟨rfl, -⟩ | ⟨y, rfl, hrest⟩ | ⟨y, hbehind, -⟩
    · omega
    · -- the name of a text and one byte of it
      rw [List.length_append, List.length_cons] at hx
      have hy : y.length = 1 := by omega
      obtain rfl : type = "TEXT" := by
        rcases hbytes with hlong | ⟨-, htype⟩
        · omega
        · exact htype
      have htexts : ∀ field, (∃ type, DeclaredField type field) → field.name = asBytes "TEXT" →
          (0 : UInt8) ∉ field.payload := by
        rintro field ⟨type, hfield⟩ htext
        obtain rfl : type = "TEXT" := asBytes_injective (hfield.1.symm.trans htext)
        exact hfield.plain
      rcases append_stop_inj.mp hrest with ⟨-, hspell⟩ | ⟨z, rfl, hspell⟩ | ⟨z, hpayload, -⟩
      · refine spell_ne_behind hnames (hname.symm.trans hfirst.1) ?_ ?_ hspell
        · exact fun field hfield ↦ htexts field (hfields field (List.mem_cons_of_mem _ hfield))
        · exact fun field hfield ↦ htexts field (hfields' field hfield)
      · rw [List.length_append, List.length_cons] at hy
        obtain rfl : z = [] := List.eq_nil_of_length_eq_zero (by omega)
        cases rest with
        | nil => cases hspell
        | cons second rest =>
          obtain ⟨type, hsecond⟩ := hfields second (List.mem_cons_of_mem _ List.mem_cons_self)
          have hlength := hsecond.name_length
          rw [spell_cons] at hspell
          rw [(plain_inj second.plain List.not_mem_nil hspell).1, List.length_nil] at hlength
          omega
      · exact absurd (hpayload ▸ List.mem_append_right _ List.mem_cons_self) hfirst.plain
    · exact absurd (hbehind ▸ List.mem_append_right _ List.mem_cons_self) first.plain

theorem DeclaredContents.not_shifted (h : DeclaredContents columns table)
    (h' : DeclaredContents columns table') (hcount : table.rows.length = table'.rows.length)
    (htypes : ∀ column ∈ columns, table.nullType column = table'.nullType column) :
    ¬Shifted (table.fields columns) (table'.fields columns) := by
  rintro ⟨before, field, field', rest, rest', x, hfields, hfields', hname, hpayload, hrest⟩
  have hdeclared := fun field ↦ @declared_fields _ _ h field
  have hdeclared' := fun field ↦ @declared_fields _ _ h' field
  have hnames : (table.fields columns).map Field.name = (table'.fields columns).map Field.name := by
    rw [declared_names h, declared_names h', hcount]
    congr 2
    exact List.map_congr_left fun column hcolumn ↦ congrArg asBytes (htypes column hcolumn)
  rw [hfields] at hdeclared hnames
  rw [hfields'] at hdeclared' hnames
  rw [List.map_append, List.map_append, List.append_cancel_left_eq, List.map_cons,
    List.map_cons, List.cons_eq_cons] at hnames
  obtain ⟨type, hfield⟩ := hdeclared field (List.mem_append_right _ List.mem_cons_self)
  obtain ⟨type', hfield'⟩ := hdeclared' field' (List.mem_append_right _ List.mem_cons_self)
  obtain rfl : type = type' :=
    asBytes_injective (hfield.1.symm.trans (hname.trans hfield'.1))
  refine declared_not_spelled ?_ ?_ hnames.2 (hfield.extended hfield' hpayload) hrest
  · exact fun other hother ↦
      hdeclared other (List.mem_append_right _ (List.mem_cons_of_mem _ hother))
  · exact fun other hother ↦
      hdeclared' other (List.mem_append_right _ (List.mem_cons_of_mem _ hother))

theorem DeclaredContents.not_confusable (h : DeclaredContents columns table)
    (h' : DeclaredContents columns table')
    (htypes : ∀ column ∈ columns, table.nullType column = table'.nullType column) :
    ¬Confusable columns table table' := by
  rintro ⟨hcount, hne, hfields | hshifted | hshifted⟩
  · refine hne (read_of_fields (fun row hrow row' hrow' column hcolumn hsame ↦ ?_) hcount hfields)
    have hrowDeclared := h row hrow column hcolumn
    have hrowDeclared' := htypes column hcolumn ▸ h' row' hrow' column hcolumn
    exact hrowDeclared.unique hrowDeclared' (congrArg Field.payload hsame)
  · exact h.not_shifted h' hcount htypes hshifted
  · exact h'.not_shifted h hcount.symm (fun column hcolumn ↦ (htypes column hcolumn).symm) hshifted

end declared

section Snapshots

variable {db db' : String → Option StoredTable} {baseline : Option DatabaseSnapshot}
variable {tables tables' : OrderedMap String TableFingerprint} {names : List String}
variable {before after : DatabaseSnapshot}

def readColumns (baseline : Option DatabaseSnapshot) (table : StoredTable) (name : String) :
    List String :=
  ((baseline.bind (·.tables.get? name)).map (·.columns)).getD table.columns

theorem snapshotTable_ok (h : snapshotTable sha256 db baseline tables name = .ok tables') :
    (db name = none ∧ tables' = tables) ∨ ∃ table fact, db name = some table ∧
      fingerprintTable sha256 table name (readColumns baseline table name) = .ok fact ∧
        tables' = tables.insert name fact := by
  unfold snapshotTable at h
  split at h
  next hnone => exact .inl ⟨hnone, (Except.ok.inj h).symm⟩
  next table htable =>
    obtain ⟨own, hown, h⟩ := Except.bind_eq_ok.mp h
    obtain ⟨-, -, hown⟩ := Except.bind_eq_ok.mp hown
    obtain ⟨-, -, hown⟩ := Except.bind_eq_ok.mp hown
    obtain rfl := Except.ok.inj hown
    obtain ⟨fact, hfact, h⟩ := Except.bind_eq_ok.mp h
    exact .inr ⟨table, fact, htable, hfact, (Except.ok.inj h).symm⟩

theorem snapshotTables_get? (hnodup : names.Nodup)
    (h : names.foldlM (snapshotTable sha256 db baseline) tables = .ok tables') :
    (name ∉ names → tables'.get? name = tables.get? name) ∧
      (name ∈ names → (db name = none → tables'.get? name = tables.get? name) ∧
        ∀ table, db name = some table → ∃ fact, tables'.get? name = some fact ∧
          fingerprintTable sha256 table name (readColumns baseline table name) = .ok fact) := by
  induction names generalizing tables with
  | nil =>
    obtain rfl := Except.ok.inj h
    exact ⟨fun _ ↦ rfl, fun hmem ↦ absurd hmem List.not_mem_nil⟩
  | cons first names ih =>
    obtain ⟨hfirst, hnames⟩ := List.nodup_cons.mp hnodup
    rw [List.foldlM_cons] at h
    obtain ⟨middle, hstep, hrest⟩ := Except.bind_eq_ok.mp h
    obtain ⟨hother, hlater⟩ := ih hnames hrest
    have hkept : first ≠ name → middle.get? name = tables.get? name := by
      intro hne
      rcases snapshotTable_ok hstep with ⟨-, rfl⟩ | ⟨table, fact, -, -, rfl⟩
      · rfl
      · rw [OrderedMap.get?_insert, if_neg hne]
    constructor
    · intro hmem
      rw [List.mem_cons, not_or] at hmem
      rw [hother hmem.2, hkept (Ne.symm hmem.1)]
    · intro hmem
      by_cases hsame : first = name
      · subst hsame
        rcases snapshotTable_ok hstep with ⟨hnone, rfl⟩ | ⟨table, fact, htable, hfact, rfl⟩
        · refine ⟨fun _ ↦ hother hfirst, fun table htable ↦ ?_⟩
          rw [hnone] at htable
          cases htable
        · refine ⟨fun hnone ↦ ?_, fun table' htable' ↦ ?_⟩
          · rw [htable] at hnone
            cases hnone
          · obtain rfl := Option.some.inj (htable.symm.trans htable')
            refine ⟨fact, ?_, hfact⟩
            rw [hother hfirst, OrderedMap.get?_insert, if_pos rfl]
      · rw [← hkept hsame]
        exact hlater ((List.mem_cons.mp hmem).resolve_left (Ne.symm hsame))

theorem snapshot_get? (h : snapshot sha256 db baseline = .ok before) (hname : name ∈ DURABLE_TABLES) :
    (db name = none → before.tables.get? name = none) ∧
      ∀ table, db name = some table → ∃ fact, before.tables.get? name = some fact ∧
        fingerprintTable sha256 table name (readColumns baseline table name) = .ok fact := by
  obtain ⟨tables, htables, rfl⟩ := Except.map_eq_ok.mp h
  exact (snapshotTables_get? (by decide) htables).2 hname

theorem preserved_of_mem (h : preservesBaseline before after = true)
    (hfact : before.tables.get? name = some fact) : ∃ actual, after.tables.get? name = some actual ∧
      actual.rowCount = fact.rowCount ∧ actual.sha256 = fact.sha256 := by
  have hentry := List.all_eq_true.mp h (name, fact) (OrderedMap.mem_entries.mpr hfact)
  obtain ⟨actual, hactual, hsame⟩ := Option.any_eq_true _ _ |>.mp hentry
  simp only [Bool.and_eq_true, decide_eq_true_eq] at hsame
  exact ⟨actual, hactual, hsame.1.1, hsame.2⟩

theorem kept_of_preserved (hinjective : Function.Injective sha256)
    (hbefore : snapshot sha256 db none = .ok before)
    (hafter : snapshot sha256 db' (some before) = .ok after)
    (haccepted : preservesBaseline before after = true) (hname : name ∈ DURABLE_TABLES)
    (htable : db name = some table)
    (hplain : ∀ table', db' name = some table' → ¬Confusable table.columns table table') :
    ∃ table', db' name = some table' ∧ table'.read table.columns = table.read table.columns := by
  obtain ⟨fact, hfact, hprint⟩ := (snapshot_get? hbefore hname).2 table htable
  obtain ⟨actual, hactual, hcount, hsha⟩ := preserved_of_mem haccepted hfact
  obtain ⟨hnone, hsome⟩ := snapshot_get? hafter hname
  cases htable' : db' name with
  | none =>
    rw [hnone htable'] at hactual
    cases hactual
  | some table' =>
    obtain ⟨fact', hfact', hprint'⟩ := hsome table' htable'
    obtain rfl := Option.some.inj (hactual.symm.trans hfact')
    have hcolumns : readColumns (some before) table' name = table.columns := by
      rw [readColumns, Option.bind_some, hfact, fingerprintTable_ok hprint]
      rfl
    rw [hcolumns] at hprint'
    refine ⟨table', rfl, ?_⟩
    exact ((fingerprint_iff hinjective hprint hprint').mpr (hplain table' htable')
      ⟨hcount.symm, hsha.symm⟩).symm

end Snapshots

/-- A fingerprint identifies the rows of a table, if and only if it is not confused with another.
It is not where texts and blobs have no NUL and a NULL is not named as a value, nor where columns
of integers and texts hold what they declare, and then an upgrade that is accepted keeps the rows
of the baseline. -/
theorem fingerprints_identify_iff (sha256 : List UInt8 → List UInt8)
    (hinjective : Function.Injective sha256) :
    (∀ name columns table table' fact fact',
      fingerprintTable sha256 table name columns = .ok fact →
      fingerprintTable sha256 table' name columns = .ok fact' →
        ((fact.rowCount = fact'.rowCount ∧ fact.sha256 = fact'.sha256 →
          table.read columns = table'.read columns) ↔ ¬Confusable columns table table')) ∧
    (∀ columns table table', PlainContents columns table → PlainContents columns table' →
      ¬Confusable columns table table') ∧
    (∀ columns table table', DeclaredContents columns table → DeclaredContents columns table' →
      (∀ column ∈ columns, table.nullType column = table'.nullType column) →
        ¬Confusable columns table table') ∧
    ∀ db db' before after, snapshot sha256 db none = .ok before →
      snapshot sha256 db' (some before) = .ok after → preservesBaseline before after = true →
        ∀ name ∈ DURABLE_TABLES, ∀ table, db name = some table →
          (∀ table', db' name = some table' → ¬Confusable table.columns table table') →
            ∃ table', db' name = some table' ∧
              table'.read table.columns = table.read table.columns :=
  ⟨fun _ _ _ _ _ _ ↦ fingerprint_iff hinjective, fun _ _ _ ↦ PlainContents.not_confusable,
    fun _ _ _ ↦ DeclaredContents.not_confusable, fun _ _ _ _ hbefore hafter haccepted _ hname _ ↦
      kept_of_preserved hinjective hbefore hafter haccepted hname⟩

def settingsTable (key value : String) : StoredTable where
  columns := ["key", "value"]
  rows := [fun column ↦ if column = "key" then .text key else .text value]
  nullType := fun _ ↦ "TEXT"
  nullType_plain := by
    intro column
    decide

theorem settings_declared {key value : String} (hkey : (0 : UInt8) ∉ asBytes key)
    (hvalue : (0 : UInt8) ∉ asBytes value) :
    DeclaredContents ["key", "value"] (settingsTable key value) := by
  intro row hrow column _
  rw [List.mem_singleton.mp hrow]
  show Declared "TEXT" (if column = "key" then .text key else .text value)
  split
  · exact ⟨rfl, hkey⟩
  · exact ⟨rfl, hvalue⟩

theorem fingerprints_identify_setting : ∃ fact fact',
    fingerprintTable id (settingsTable "a" "b") "settings" ["key", "value"] = .ok fact ∧
      fingerprintTable id (settingsTable "a" "c") "settings" ["key", "value"] = .ok fact' ∧
        fact.rowCount = fact'.rowCount ∧ fact.sha256 ≠ fact'.sha256 := by
  obtain ⟨hidentify, -, hdeclared, -⟩ := fingerprints_identify_iff id Function.injective_id
  have hclear : ¬Confusable ["key", "value"] (settingsTable "a" "b") (settingsTable "a" "c") :=
    hdeclared _ _ _ (settings_declared (by decide) (by decide))
      (settings_declared (by decide) (by decide)) fun _ _ ↦ rfl
  refine ⟨_, _, rfl, rfl, rfl, fun hsame ↦ ?_⟩
  have hrows := (hidentify "settings" ["key", "value"] _ _ _ _ rfl rfl).mpr hclear ⟨rfl, hsame⟩
  exact absurd hrows (by decide)

theorem settings_confused :
    ¬∀ (sha256 : List UInt8 → List UInt8), Function.Injective sha256 →
      ∀ (name : String) (columns : List String) (table table' : StoredTable)
        (fact fact' : TableFingerprint),
      fingerprintTable sha256 table name columns = .ok fact →
      fingerprintTable sha256 table' name columns = .ok fact' →
      fact.rowCount = fact'.rowCount → fact.sha256 = fact'.sha256 →
      table.read columns = table'.read columns := by
  intro h
  have hsame := h id Function.injective_id "settings" ["key", "value"]
    (settingsTable "a\x00TEXT\x00b" "c") (settingsTable "a" "b\x00TEXT\x00c") _ _ rfl rfl rfl
    (by decide)
  exact absurd hsame (by decide)

end StealthHub.Compatibility
