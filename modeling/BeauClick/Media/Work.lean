import BeauClick.Media.Lifecycle

/-!
# What the calls about a media object rely on

* `Published` — the stored row describes the bytes at the key.
* `MediaWork` — what a call has read, place by place.
* `mediaWork_beside` — the other calls leave it.
-/

namespace BeauClick.Media

open Locks ReadCommitted ReadCommitted.Versioned Runs Transactions

variable {db db' : MediaDb} {p q : ℕ} {place : MediaPlace} {x y row : MediaObjectEntity}
  {object : Buffer} {probed : ProbedImage} {byteSize : ℕ}

/-! ## What is published -/

/-- What `finalize` has found: bytes of an accepted size, and an image of accepted dimensions. -/
structure Accepted (purpose : MediaPurpose) (object : Buffer) (probed : ProbedImage) : Prop where
  pos : 0 < object.length
  le : object.length ≤ purpose.policy.maxBytes
  probe : probeImage (object.take imageProbeBytes) = some probed
  min : purpose.policy.minEdgePx ≤ probed.width ∧ purpose.policy.minEdgePx ≤ probed.height
  max : probed.width ≤ purpose.policy.maxEdgePx ∧ probed.height ≤ purpose.policy.maxEdgePx

/-- The row describes the object. -/
def Describes (x : MediaObjectEntity) (object : Buffer) : Prop :=
  ∃ probed, Accepted x.purpose object probed ∧ x.byteSize = some object.length ∧
    x.contentType = some probed.format ∧ x.width = some probed.width ∧
      x.height = some probed.height

/-- What is stored is there, byte for byte as it was checked, and the row describes it. -/
def Published (db : MediaDb) : Prop :=
  ∀ x ∈ db.object.committed (), x.status = .stored →
    ∃ object, db.bytes = some object ∧ db.checked = some object ∧ Describes x object

/-- The committed status. -/
def HasStatus (db : MediaDb) (status : MediaObjectStatus) : Prop :=
  ∃ x ∈ db.object.committed (), x.status = status

/-- The object is there, what is stored is as it was checked, and nothing is reported before it has
been stored. -/
structure MediaSound (db : MediaDb) : Prop where
  there : ∃ x, db.object.committed () = some x
  published : Published db
  reported : ∀ k r, (db.reports.row k).Version r → ¬HasStatus db .pending

/-! ## What a call has read and written -/

/-- The call has written nothing. -/
structure Clean (db : MediaDb) (p : ℕ) : Prop where
  object : db.object.Untouched p
  reports : db.reports.Untouched p

/-- The call has marked the row deleted. -/
def Removes (db : MediaDb) (p : ℕ) : Prop :=
  ∃ x y, db.object.row () = ⟨some x, some (p, y)⟩ ∧ y.purpose = x.purpose ∧ y.status = .deleted

/-- The row that the call has read is of the purpose of the object. -/
def SamePurpose (db : MediaDb) (row : MediaObjectEntity) : Prop :=
  ∃ x ∈ db.object.committed (), x.purpose = row.purpose

/-- What a call has read and written, place by place. -/
def MediaWork (db : MediaDb) (p : ℕ) : MediaPlace → Prop
  | .head row => Clean db p ∧ SamePurpose db row
  | .readHeader row byteSize => Clean db p ∧ SamePurpose db row ∧ 0 < byteSize ∧
      byteSize ≤ row.purpose.policy.maxBytes
  | .claim row byteSize probed object => Clean db p ∧ SamePurpose db row ∧
      (object.length = byteSize → Accepted row.purpose object probed)
  | .finishRemove => Removes db p ∧ db.reports.Untouched p
  | .insertReport _ => Clean db p ∧ ¬HasStatus db .pending
  | .findReported _ => db.object.Untouched p ∧ ¬HasStatus db .pending
  | .takeDown _ => db.object.Untouched p
  | .finishDecide true => db.object.Untouched p ∧ HasStatus db .deleted ∨ Removes db p
  | .finishDecide false => db.object.Untouched p
  | .deleteBytes => Clean db p ∧ HasStatus db .deleted
  | _ => Clean db p

/-- An upload writes nothing else over what is stored; `finalize` stores the very object that it has
read the header of, and of the size that it has been told; what it discards is not stored. -/
def Undisturbed (env : MediaEnv) (db : MediaDb) (p : ℕ) : MediaPlace → Prop
  | .write body => env.answers = true → HasStatus db .stored → db.bytes = some body
  | .claim _ byteSize _ object => HasStatus db .pending → ¬(db.object.row ()).Locked p →
      db.bytes = some object ∧ object.length = byteSize
  | .discardBytes _ => env.answers = true → ¬HasStatus db .stored
  | .discardRow _ => HasStatus db .stored → (db.object.row ()).Locked p
  | _ => True

/-- What holds of the tables, and what a call relies on. -/
def mediaOutline : Outline MediaDb Unit MediaPlace MediaEnv where
  Assumes := Undisturbed
  Sound := MediaSound
  Guarantee := fun _ _ => True
  Work := MediaWork
  holds := fun _ _ _ => False

/-! ## What a step leaves to the calls beside it -/

/-- The object stays for its purpose; what is not pending does not become so, and what is deleted
stays deleted. -/
def Ages (db db' : MediaDb) : Prop :=
  ∀ x ∈ db.object.committed (), ∃ x' ∈ db'.object.committed (), x'.purpose = x.purpose ∧
    (x.status ≠ .pending → x'.status ≠ .pending) ∧ (x.status = .deleted → x'.status = .deleted)

/-- What the step of another call leaves to a call. -/
structure Beside (q : ℕ) (db db' : MediaDb) : Prop where
  object : Others q db.object db'.object
  reports : Others q db.reports db'.reports
  ages : Ages db db'

theorem Ages.of_same (h : db'.object.committed = db.object.committed) : Ages db db' := by
  intro x hx
  refine ⟨x, ?_, rfl, id, id⟩
  rw [h]
  exact hx

theorem Ages.pending (h : Ages db db') (hs : MediaSound db) (hp : ¬HasStatus db .pending) :
    ¬HasStatus db' .pending := by
  obtain ⟨x, hx⟩ := hs.there
  obtain ⟨_, hx', -, hstays, -⟩ := h x hx
  rintro ⟨_, hz, hpend⟩
  cases hx'.symm.trans hz
  exact hstays (fun hx'' => hp ⟨x, hx, hx''⟩) hpend

theorem Ages.deleted (h : Ages db db') (hd : HasStatus db .deleted) : HasStatus db' .deleted := by
  obtain ⟨x, hx, hdel⟩ := hd
  obtain ⟨x', hx', -, -, hstays⟩ := h x hx
  exact ⟨x', hx', hstays hdel⟩

theorem Ages.purpose (h : Ages db db') (hrow : SamePurpose db row) : SamePurpose db' row := by
  obtain ⟨x, hx, hpurp⟩ := hrow
  obtain ⟨x', hx', hsame, -, -⟩ := h x hx
  exact ⟨x', hx', hsame.trans hpurp⟩

theorem Clean.beside (h : Clean db q) (hb : Beside q db db') : Clean db' q :=
  ⟨hb.object.untouched h.object, hb.reports.untouched h.reports⟩

theorem Removes.beside (h : Removes db q) (hb : Beside q db db') : Removes db' q := by
  obtain ⟨x, y, hrow, hrest⟩ := h
  exact ⟨x, y, hb.object.row_of hrow, hrest⟩

theorem mediaWork_beside (hs : MediaSound db) (h : MediaWork db q place)
    (hb : Beside q db db') : MediaWork db' q place := by
  cases place with
  | head => exact ⟨h.1.beside hb, hb.ages.purpose h.2⟩
  | readHeader | claim => exact ⟨h.1.beside hb, hb.ages.purpose h.2.1, h.2.2⟩
  | finishRemove => exact ⟨h.1.beside hb, hb.reports.untouched h.2⟩
  | insertReport => exact ⟨h.1.beside hb, hb.ages.pending hs h.2⟩
  | findReported => exact ⟨hb.object.untouched h.1, hb.ages.pending hs h.2⟩
  | takeDown => exact hb.object.untouched h
  | finishDecide removed =>
    cases removed with
    | true =>
      exact h.imp (fun ⟨hu, hd⟩ => ⟨hb.object.untouched hu, hb.ages.deleted hd⟩)
        fun hr => hr.beside hb
    | false => exact hb.object.untouched h
  | deleteBytes => exact ⟨h.1.beside hb, hb.ages.deleted h.2⟩
  | _ => exact Clean.beside h hb

end BeauClick.Media
