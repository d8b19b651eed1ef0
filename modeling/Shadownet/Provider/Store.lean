import Shadownet.Foundation.Outcome
import Shadownet.Foundation.Table
import Shadownet.Go.AgentCard

/-!
# The record stores of the provider

`provider.Record`, `provider.Store`, and its two implementations: the SQLite one of
`core/internal/provider/sqlitestore`, which keeps times as second counts, and the Postgres one of
`core/pgstore`, which keeps them as `TIMESTAMPTZ` and takes no text that is not valid UTF-8 or has
a zero byte. Every call is one statement.

`Implements` says what the server needs of a store: the cards it has are a map from names, which
a put sets at one name and a delete clears at one. Both stores implement it (`sqlite_implements`,
`pg_implements`), each with its own texts.
-/

namespace Shadownet.Provider

open Foundation Go

/-- `provider.Record`. -/
structure Record extends ProviderCard where
  createdAt : Time
  updatedAt : Time

/-- The errors callers tell apart with `errors.Is`. -/
inductive StoreError where
  | notFound
  | failure (detail : Bytes)
  deriving DecidableEq

/-- The text of an error. -/
def StoreError.text : StoreError → Bytes
  | .notFound => bytes "provider: shadowname not found"
  | .failure detail => detail

/-- The card of a record with the default of its version filled in, as `PutRecord` writes it. -/
def Record.versioned (r : Record) : ProviderCard :=
  { r.toProviderCard with version := ProviderCard.versionOr r.version }

/-- The texts of the columns of a card. -/
def columns (c : ProviderCard) : List Bytes :=
  [c.localPart, c.shadowPublicKey, c.a2aURL, c.displayName, c.description, c.version]

/-- `provider.Store`, over the states of an implementation. -/
structure StoreImpl (σ : Type) where
  empty : σ
  getRecord : σ → Bytes → Except StoreError Record
  putRecord : σ → Time → Record → Except StoreError σ
  deleteRecord : σ → Bytes → Except StoreError σ

/-! ## SQLite -/

/-- A row of `provider_records`. -/
structure SqliteRow extends ProviderCard where
  createdUnix : Int
  updatedUnix : Int

/-- The table of `sqlitestore.Store`. -/
abbrev SqliteStore := Table fun r : SqliteRow => r.localPart

namespace SqliteStore

/-- The row a query scans. -/
def scan (r : SqliteRow) : Record :=
  { r with createdAt := Time.ofUnix r.createdUnix, updatedAt := Time.ofUnix r.updatedUnix }

/-- `Store.GetRecord`. -/
def getRecord (s : SqliteStore) (loc : Bytes) : Except StoreError Record :=
  match s.find loc with
  | none => throw .notFound
  | some r => pure (scan r)

/-- The row `PutRecord` inserts. -/
def newRow (now : Time) (r : Record) : SqliteRow :=
  { r.versioned with
    createdUnix := (r.createdAt.orNow (Time.ofUnix now.unix)).unix
    updatedUnix := now.unix }

/-- The `DO UPDATE` of `PutRecord`, with the row that was to be inserted. -/
def updateRow (excluded old : SqliteRow) : SqliteRow :=
  { excluded with localPart := old.localPart, createdUnix := old.createdUnix }

theorem updateRow_localPart (excluded old : SqliteRow) :
    (updateRow excluded old).localPart = old.localPart := rfl

/-- `Store.PutRecord`. -/
def putRecord (s : SqliteStore) (now : Time) (r : Record) : SqliteStore :=
  s.upsert (newRow now r) (updateRow (newRow now r)) (updateRow_localPart _)

/-- `Store.DeleteRecord`. -/
def deleteRecord (s : SqliteStore) (loc : Bytes) : SqliteStore := s.erase loc

/-- The card the store has for a name. -/
def cardOf (s : SqliteStore) (loc : Bytes) : Option ProviderCard :=
  (s.find loc).map SqliteRow.toProviderCard

end SqliteStore

/-- `sqlitestore.Store`. -/
def sqlite : StoreImpl SqliteStore where
  empty := Table.empty
  getRecord := SqliteStore.getRecord
  putRecord s now r := .ok (s.putRecord now r)
  deleteRecord s loc := .ok (s.deleteRecord loc)

/-! ## Postgres -/

/-- The texts a `TEXT` column of a UTF-8 database takes. -/
def IsText (b : Bytes) : Prop := (utf8Decode b).isSome = true ∧ 0 ∉ b

instance : DecidablePred IsText := fun b =>
  inferInstanceAs (Decidable ((utf8Decode b).isSome = true ∧ 0 ∉ b))

theorem micros_lt (t : Time) : t.nsec / 1000 * 1000 < 1000000000 :=
  (Nat.div_mul_le_self _ _).trans_lt t.nsec_lt

/-- A time as a `TIMESTAMPTZ` column keeps it. -/
def timestamptz (t : Time) : Time := ⟨t.sec, t.nsec / 1000 * 1000, micros_lt t⟩

/-- The table of `pgstore.ProviderStore`; its rows have the columns of a record. -/
abbrev PgStore := Table fun r : Record => r.localPart

namespace PgStore

/-- The error of a statement with a text that no column takes, after `fmt.Errorf`. -/
def invalidText (context : String) : StoreError :=
  .failure (bytes context ++
    bytes ": ERROR: invalid byte sequence for encoding \"UTF8\" (SQLSTATE 22021)")

/-- `ProviderStore.GetRecord`. -/
def getRecord (s : PgStore) (loc : Bytes) : Except StoreError Record :=
  if IsText loc then
    match s.find loc with
    | none => throw .notFound
    | some r => pure r
  else throw (invalidText "pgstore: select provider record")

/-- The row `PutRecord` inserts. -/
def newRow (now : Time) (r : Record) : Record :=
  { r.versioned with
    createdAt := timestamptz (r.createdAt.orNow now)
    updatedAt := timestamptz now }

/-- The `DO UPDATE` of `PutRecord`, with the row that was to be inserted. -/
def updateRow (excluded old : Record) : Record :=
  { excluded with localPart := old.localPart, createdAt := old.createdAt }

theorem updateRow_localPart (excluded old : Record) :
    (updateRow excluded old).localPart = old.localPart := rfl

/-- `ProviderStore.PutRecord`. -/
def putRecord (s : PgStore) (now : Time) (r : Record) : Except StoreError PgStore :=
  if ∀ c ∈ columns r.versioned, IsText c then
    pure (s.upsert (newRow now r) (updateRow (newRow now r)) (updateRow_localPart _))
  else throw (invalidText "pgstore: upsert provider record")

/-- `ProviderStore.DeleteRecord`. -/
def deleteRecord (s : PgStore) (loc : Bytes) : Except StoreError PgStore :=
  if IsText loc then pure (s.erase loc)
  else throw (invalidText "pgstore: delete provider record")

/-- The card the store has for a name. -/
def cardOf (s : PgStore) (loc : Bytes) : Option ProviderCard :=
  (s.find loc).map Record.toProviderCard

end PgStore

/-- `pgstore.ProviderStore`. -/
def pg : StoreImpl PgStore where
  empty := Table.empty
  getRecord := PgStore.getRecord
  putRecord := PgStore.putRecord
  deleteRecord := PgStore.deleteRecord

/-! ## What the server needs of a store -/

/-- The cards a store has, by name. -/
abbrev Directory := Bytes → Option ProviderCard

/-- The implementation `I` keeps a directory, of texts that satisfy `Takes`. -/
structure Implements {σ : Type} (I : StoreImpl σ) (Takes : Bytes → Prop)
    (cardOf : σ → Directory) : Prop where
  empty : cardOf I.empty = fun _ => none
  get_some : ∀ {s k c}, Takes k → cardOf s k = some c →
    ∃ r, I.getRecord s k = .ok r ∧ r.toProviderCard = c
  get_none : ∀ {s k}, Takes k → cardOf s k = none → I.getRecord s k = .error .notFound
  get_refused : ∀ {s k}, ¬ Takes k → ∃ d, I.getRecord s k = .error (.failure d)
  put : ∀ {s} now {r : Record}, (∀ c ∈ columns r.versioned, Takes c) →
    ∃ s', I.putRecord s now r = .ok s' ∧
      cardOf s' = Function.update (cardOf s) r.localPart (some r.versioned)
  put_refused : ∀ {s} now {r : Record}, ¬ (∀ c ∈ columns r.versioned, Takes c) →
    ∃ d, I.putRecord s now r = .error (.failure d)
  delete : ∀ {s k}, Takes k →
    ∃ s', I.deleteRecord s k = .ok s' ∧ cardOf s' = Function.update (cardOf s) k none
  delete_refused : ∀ {s k}, ¬ Takes k → ∃ d, I.deleteRecord s k = .error (.failure d)

section
variable {κ ρ : Type*} [DecidableEq κ] {key : ρ → κ} {t : Table key}

/-- What an upsert makes of the images of the rows under `f`, when an update has the image of the
new row. -/
theorem map_find_upsert {α : Type*} (f : ρ → α) {row : ρ} {update : ρ → ρ}
    {hkey : ∀ r, key (update r) = key r}
    (hf : ∀ old, key old = key row → f (update old) = f row) :
    (fun k => ((t.upsert row update hkey).find k).map f) =
      Function.update (fun k => (t.find k).map f) (key row) (some (f row)) := by
  funext k
  rw [Table.find_upsert, Function.update_apply]
  by_cases h : k = key row
  · rw [if_pos h, if_pos h, Option.map_some]
    cases hfind : t.find k with
    | none => rfl
    | some old => rw [Option.elim_some, hf old ((Table.find_eq_some hfind).2.trans h)]
  · rw [if_neg h, if_neg h]

theorem map_find_erase {α : Type*} (f : ρ → α) (k : κ) :
    (fun k' => ((t.erase k).find k').map f) =
      Function.update (fun k' => (t.find k').map f) k none := by
  funext k'
  rw [Table.find_erase, Function.update_apply, apply_ite (Option.map f)]
  rfl

end

theorem sqlite_implements : Implements sqlite (fun _ => True) SqliteStore.cardOf where
  empty := rfl
  get_some := @fun s k c _ h => by
    obtain ⟨row, hrow, rfl⟩ := Option.map_eq_some_iff.mp h
    refine ⟨SqliteStore.scan row, ?_, rfl⟩
    show SqliteStore.getRecord s k = _
    rw [SqliteStore.getRecord, hrow]
    rfl
  get_none := @fun s k _ h => by
    show SqliteStore.getRecord s k = _
    rw [SqliteStore.getRecord, Option.map_eq_none_iff.mp h]
    rfl
  get_refused := fun h => absurd trivial h
  put := fun now r _ => ⟨_, rfl, map_find_upsert _ fun old hkey => by
    rw [SqliteStore.updateRow, hkey]⟩
  put_refused := fun _ _ h => absurd (fun _ _ => trivial) h
  delete := @fun _ k _ => ⟨_, rfl, map_find_erase _ k⟩
  delete_refused := fun h => absurd trivial h

theorem pg_implements : Implements pg IsText PgStore.cardOf where
  empty := rfl
  get_some := @fun s k c hk h => by
    obtain ⟨row, hrow, rfl⟩ := Option.map_eq_some_iff.mp h
    refine ⟨row, ?_, rfl⟩
    show PgStore.getRecord s k = _
    rw [PgStore.getRecord, if_pos hk, hrow]
    rfl
  get_none := @fun s k hk h => by
    show PgStore.getRecord s k = _
    rw [PgStore.getRecord, if_pos hk, Option.map_eq_none_iff.mp h]
    rfl
  get_refused := fun h => ⟨_, if_neg h⟩
  put := fun now r h => ⟨_, if_pos h, map_find_upsert _ fun old hkey => by
    rw [PgStore.updateRow, hkey]⟩
  put_refused := fun _ _ h => ⟨_, if_neg h⟩
  delete := @fun _ k h => ⟨_, if_pos h, map_find_erase _ k⟩
  delete_refused := fun h => ⟨_, if_neg h⟩

end Shadownet.Provider
