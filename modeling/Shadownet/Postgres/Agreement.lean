import Shadownet.Issuer.EpochTable
import Shadownet.Postgres.Store

/-!
# The two issuer stores agree

The SQLite store and the Postgres store over the same calls. `SameRow` relates a row of one
epoch table to a row of the other, whatever instants they were opened and closed at, and every
call keeps the tables related and gives the same reply, as long as the number of the open epoch
can be increased within a `BIGINT`.
-/

namespace Shadownet.Postgres

open Foundation Go

/-! ## Calls and replies -/

/-- The calls, each with the clock readings of the two stores. -/
inductive Call where
  | allocateIndex (credentialExp now now' : Time)
  | rotateEpoch (maxIndices : Nat) (t now now' : Time)
  | setRevoked (epoch idx : Nat) (t now now' : Time)
  | getEpoch (n : Nat)
  | currentEpoch
  | listOpenEpochs
  | loadStatusBits (epoch : Nat)

inductive ErrorKind where
  | notFound
  | invalid
  | other
  deriving DecidableEq

def kind : StoreError → ErrorKind
  | .notFound => .notFound
  | .invalid _ => .invalid
  | .failure _ => .other

/-- What a caller sees of an epoch, the instants of its opening and closing apart. -/
structure EpochView where
  number : Nat
  maxIndices : Nat
  nextIdx : Nat
  isOpen : Bool
  lastIssuedExpiresAt : Time
  deriving DecidableEq

def view (e : Epoch) : EpochView :=
  ⟨e.number, e.maxIndices, e.nextIdx, e.closedAt.isZero, e.lastIssuedExpiresAt⟩

inductive Reply where
  | allocated (epoch idx : Nat)
  | epoch (e : EpochView)
  | epochs (es : List EpochView)
  | bits (bits : Bytes) (latest : Time)
  | done
  | failed (k : ErrorKind)
  deriving DecidableEq

def Reply.of {α : Type} (f : α → Reply) : Except StoreError α → Reply
  | .ok a => f a
  | .error e => .failed (kind e)

/-- `ListOpenEpochs` of the SQLite store. -/
def sqliteListOpenEpochs (db : Issuer.Database) : Except StoreError (List Epoch) :=
  .ok (((db.epochs.filter (·.closedAt == 0)).mergeSort fun a b => a.number ≤ b.number).map
    Issuer.scanEpoch)

/-- One call on the SQLite store. -/
def sqliteStep (s : Issuer.Store) : Call → Issuer.Store × Reply
  | .allocateIndex exp now _ =>
    ((s.allocateIndex exp now).1, .of (fun p => .allocated p.1 p.2) (s.allocateIndex exp now).2)
  | .rotateEpoch m t now _ =>
    ((s.rotateEpoch m t now).1, .of (fun e => .epoch (view e)) (s.rotateEpoch m t now).2)
  | .setRevoked e i t now _ =>
    ((s.setRevoked e i t now).1, .of (fun _ => .done) (s.setRevoked e i t now).2)
  | .getEpoch n => (s, .of (fun e => .epoch (view e)) (s.db.getEpoch n))
  | .currentEpoch => (s, .of (fun e => .epoch (view e)) s.db.currentEpochInTx)
  | .listOpenEpochs => (s, .of (fun es => .epochs (es.map view)) (sqliteListOpenEpochs s.db))
  | .loadStatusBits e => (s, .of (fun b => .bits b.1 b.2) (s.db.loadStatusBits e))

/-- One call on the Postgres store. -/
def pgStep (scan : List RevocationRow → List RevocationRow) (s : IssuerStore) :
    Call → IssuerStore × Reply
  | .allocateIndex exp _ now =>
    let r := s.runTx now (allocateIndex () s.maxIndices exp)
    (r.1, .of (fun p => .allocated p.1 p.2) r.2)
  | .rotateEpoch m t _ now =>
    let r := s.runTx now (rotateEpoch () s.maxIndices m t)
    (r.1, .of (fun e => .epoch (view e)) r.2)
  | .setRevoked e i t _ now =>
    ((s.setRevoked e i t now).1, .of (fun _ => .done) (s.setRevoked e i t now).2)
  | .getEpoch n => (s, .of (fun e => .epoch (view e)) (s.getEpoch n))
  | .currentEpoch => (s, .of (fun e => .epoch (view e)) s.currentEpoch)
  | .listOpenEpochs => (s, .of (fun es => .epochs (es.map view)) s.listOpenEpochs)
  | .loadStatusBits e => (s, .of (fun b => .bits b.1 b.2) (s.loadStatusBits scan e))

/-- A whole second after the Unix epoch. -/
structure Whole (t : Time) : Prop where
  nsec_eq : t.nsec = 0
  pos : 0 < t.sec

/-- Numbers fit an `int64`, and times are whole seconds after the Unix epoch. -/
def Call.Valid : Call → Prop
  | .allocateIndex exp now now' => Whole exp ∧ Whole now ∧ Whole now'
  | .rotateEpoch m t now now' => m < Issuer.sqlLimit ∧ Whole t ∧ Whole now ∧ Whole now'
  | .setRevoked e i t now now' =>
    e < Issuer.sqlLimit ∧ i < Issuer.sqlLimit ∧ Whole t ∧ Whole now ∧ Whole now'
  | .getEpoch n => n < Issuer.sqlLimit
  | .currentEpoch => True
  | .listOpenEpochs => True
  | .loadStatusBits e => e < Issuer.sqlLimit

/-! ## Conversions -/

theorem int64_of_lt {n : Nat} (h : n < Issuer.sqlLimit) : int64 n = n := by
  unfold Issuer.sqlLimit at h
  unfold int64
  omega

theorem uint64_natCast {n : Nat} (h : n < Issuer.sqlLimit) : uint64 (n : Int) = n := by
  unfold Issuer.sqlLimit at h
  unfold uint64
  omega

theorem Whole.eq_ofUnix {t : Time} (h : Whole t) : t = Time.ofUnix t.sec := by
  obtain ⟨sec, nsec, hlt⟩ := t
  obtain rfl : nsec = 0 := h.nsec_eq
  rfl

theorem Whole.timestamptz_eq {t : Time} (h : Whole t) : timestamptz t = t := by
  obtain ⟨sec, nsec, hlt⟩ := t
  obtain rfl : nsec = 0 := h.nsec_eq
  simp [timestamptz]

theorem Whole.not_zero {t : Time} (h : Whole t) : t.isZero = false := by
  have := h.pos
  rw [Bool.eq_false_iff]
  intro hz
  rw [Time.isZero_iff] at hz
  rw [hz] at this
  exact absurd this (by decide)

theorem Whole.orNow {t now : Time} (h : Whole t) : t.orNow now = t := by
  rw [Time.orNow, h.not_zero]
  rfl

/-! ## Related tables -/

/-- Two rows of the same epoch. -/
structure SameRow (r : Issuer.EpochRow) (p : EpochRow) : Prop where
  number : p.number = r.number
  maxIndices : p.maxIndices = r.maxIndices
  nextIdx : p.nextIdx = r.nextIdx
  closed : (r.closedAt = 0 ∧ p.closedAt = none) ∨
    (0 < r.closedAt ∧ ∃ t, p.closedAt = some t ∧ Whole t)
  issued : (r.lastIssued = 0 ∧ p.lastIssued = none) ∨
    (0 < r.lastIssued ∧ p.lastIssued = some (Time.ofUnix r.lastIssued))

structure SameRevocation (r : Issuer.RevocationRow) (p : RevocationRow) : Prop where
  epoch : p.epoch = r.epoch
  idx : p.idx = r.idx
  idx_lt : r.idx < Issuer.sqlLimit
  revokedAt : p.revokedAt = Time.ofUnix r.revokedAt

/-- The two stores hold the same epochs and revocations. -/
structure Agrees (s : Issuer.Store) (p : IssuerStore) : Prop where
  sound : s.Sound
  maxIndices : p.maxIndices = s.maxIndices
  max_lt : s.maxIndices < Issuer.sqlLimit
  epochs : List.Forall₂ SameRow s.db.epochs p.epochs
  revocations : List.Forall₂ SameRevocation s.db.revocations p.revocations

theorem SameRow.isNone {r : Issuer.EpochRow} {p : EpochRow} (h : SameRow r p) :
    p.closedAt.isNone = (r.closedAt == 0) := by
  rcases h.closed with ⟨hr, hp⟩ | ⟨hr, t, hp, -⟩
  · simp [hr, hp]
  · simp only [hp, Option.isNone_some]
    have hne : r.closedAt ≠ 0 := by omega
    simp [hne]

theorem SameRow.view_eq {r : Issuer.EpochRow} {p : EpochRow} (h : SameRow r p)
    (hb : r.InBounds) : view (scanEpochRow p) = view (Issuer.scanEpoch r) := by
  have hnext : r.nextIdx < Issuer.sqlLimit := hb.next_le.trans_lt hb.max_lt
  have hopen : (p.closedAt.getD Time.zero).isZero = (Issuer.scanTime r.closedAt).isZero := by
    rcases h.closed with ⟨hr, hp⟩ | ⟨hr, t, hp, ht⟩
    · rw [hr, hp]
      rfl
    · have hw : Whole (Time.ofUnix r.closedAt) := ⟨rfl, hr⟩
      rw [hp, Option.getD_some, ht.not_zero, Issuer.scanTime, if_neg (by omega), hw.not_zero]
  have hlast : p.lastIssued.getD Time.zero = Issuer.scanTime r.lastIssued := by
    rcases h.issued with ⟨hr, hp⟩ | ⟨hr, hp⟩
    · rw [hr, hp]
      rfl
    · rw [hp, Option.getD_some, Issuer.scanTime, if_neg (by omega)]
  simp only [view, scanEpochRow, Issuer.scanEpoch, hopen, hlast, h.number, h.maxIndices,
    h.nextIdx, uint64_natCast hb.number_lt, uint64_natCast hb.max_lt, uint64_natCast hnext]

end Shadownet.Postgres
