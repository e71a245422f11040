import Mathlib.Data.List.Sort
import Mathlib.Data.Prod.Lex
import BeauClick.Lib.Base64url
import BeauClick.Lib.IsoDate
import BeauClick.Lib.Utf16
import BeauClick.Wishlist.SavedItems

/-!
# The pages of a saved list

The rows that `WishlistService.list` (`services/wishlist/src/wishlist.service.ts`) selects and the
cursor it answers with; `created_at` is in microseconds here, and a cursor has milliseconds.  The
pages are followed by the places that cursors stand for; the texts themselves are no longer than
the reader takes, and are read back.

* `decode_encodeWishlistCursor` — a cursor is read back as the milliseconds and the row it was
  written for; `decode_cursor` says it of a row.
* `followPages_visits` — what a client has seen that follows the cursors to the end.
-/

namespace BeauClick.Wishlist

open List

/-- A limit that is not there is no finite number. -/
def clampPageSize : Option ℚ → ℕ
  | none => 20
  | some limit => (min (max 1 limit.floor) 50).toNat

theorem clampPageSize_pos (limit : Option ℚ) : 0 < clampPageSize limit := by
  cases limit <;> simp only [clampPageSize] <;> omega

/-! ## Cursors -/

/-- `WISHLIST_MAX_CURSOR_LENGTH`. -/
def wishlistMaxCursorLength : ℕ := 200

/-- `UUID_SHAPE`. -/
def uuidShape : List Fields.Column := [⟨8, ['-']⟩, ⟨4, ['-']⟩, ⟨4, ['-']⟩, ⟨4, ['-']⟩, ⟨12, []⟩]

/-- The numbers between the hyphens of an identifier. -/
def uuidNumbers (id : ℕ) : List ℕ :=
  [id / 16 ^ 24, id / 16 ^ 20 % 16 ^ 4, id / 16 ^ 16 % 16 ^ 4, id / 16 ^ 12 % 16 ^ 4, id % 16 ^ 12]

/-- An identifier as a column of the type `uuid` gives it. -/
def uuidText (id : ℕ) : List Char := Fields.write 16 (uuidShape.zip (uuidNumbers id))

/-- The identifier of a text of that shape. -/
def readUuid (cs : List Char) : Option ℕ :=
  match Fields.read 16 uuidShape cs with
  | some [a, b, c, d, e] => some ((((a * 16 ^ 4 + b) * 16 ^ 4 + c) * 16 ^ 4 + d) * 16 ^ 12 + e)
  | _ => none

/-- `encodeWishlistCursor`, of milliseconds. -/
def encodeWishlistCursor (createdAt : ℤ) (id : ℕ) : List Char :=
  Base64url.encode (Utf8.encode (IsoDate.toISOString createdAt ++ '|' :: uuidText id))

/-- `decodeWishlistCursor`; what is not well formed is no cursor. -/
def decodeWishlistCursor (cursor : List Char) : Option (ℤ × ℕ) :=
  if wishlistMaxCursorLength < Utf16.length cursor then none
  else
    match (Utf8.decode (Base64url.decode cursor)).splitOn '|' with
    | iso :: id :: _ => (IsoDate.parse iso).bind fun createdAt => (readUuid id).map (createdAt, ·)
    | _ => none

theorem readUuid_uuidText {id : ℕ} (hid : id < 16 ^ 32) : readUuid (uuidText id) = some id := by
  have hread : Fields.read 16 uuidShape (uuidText id) = some (uuidNumbers id) := by
    refine Fields.read_write (by decide) (uuidShape.zip (uuidNumbers id)) ?_
    simp only [uuidShape, uuidNumbers, zip_cons_cons, zip_nil_right, forall_mem_cons,
      not_mem_nil, IsEmpty.forall_iff, implies_true, and_true]
    omega
  rw [readUuid, hread]
  refine congrArg some ?_
  omega

/-- Nothing that a cursor is made of is beyond ASCII. -/
theorem forall_mem_cursor {P : Char → Prop} (hdigit : ∀ d < 16, P (Nat.digitChar d))
    (hsep : ∀ c ∈ ['-', 'T', ':', '.', 'Z'], P c) (createdAt : ℤ) (id : ℕ) :
    (∀ c ∈ IsoDate.toISOString createdAt, P c) ∧ ∀ c ∈ uuidText id, P c := by
  refine ⟨IsoDate.forall_mem_toISOString hdigit hsep,
    Fields.forall_mem_write (by decide) (by decide) hdigit ?_⟩
  simpa [uuidShape, uuidNumbers] using hsep '-' mem_cons_self

/-- A cursor is short enough to be read. -/
theorem length_encodeWishlistCursor (createdAt : ℤ) (id : ℕ) :
    Utf16.length (encodeWishlistCursor createdAt id) ≤ wishlistMaxCursorLength := by
  obtain ⟨hiso, hid⟩ := forall_mem_cursor (P := (Char.utf8Size · = 1)) (by decide)
    (by simp [Char.utf8Size]) createdAt id
  have hascii : ∀ c ∈ IsoDate.toISOString createdAt ++ '|' :: uuidText id, c.utf8Size = 1 :=
    forall_mem_append.2 ⟨hiso, forall_mem_cons.2 ⟨by decide, hid⟩⟩
  have hbytes := Utf8.length_encode hascii
  have huuid : (uuidText id).length = 36 := Fields.length_write _
  rw [length_append, length_cons, IsoDate.length_toISOString, huuid] at hbytes
  have hchars : ∀ n < 64, (Base64url.char n).toNat < 0x10000 := by decide
  rw [encodeWishlistCursor, Utf16.length_eq, Base64url.encode, length_map,
    Base64url.length_sextets, hbytes]
  · decide
  · intro c hc
    obtain ⟨n, hn, rfl⟩ := mem_map.1 hc
    exact hchars n (Base64url.sextets_lt _ n hn)

/-- What is written is read back, of an identifier of 128 bits and a year of four digits. -/
theorem decode_encodeWishlistCursor {createdAt : ℤ} {id : ℕ}
    (hyear : 0 ≤ IsoDate.year createdAt ∧ IsoDate.year createdAt < 10000) (hid : id < 16 ^ 32) :
    decodeWishlistCursor (encodeWishlistCursor createdAt id) = some (createdAt, id) := by
  obtain ⟨hiso, huuid⟩ := forall_mem_cursor (P := (· ≠ '|')) (by decide) (by simp) createdAt id
  have hsplit : (IsoDate.toISOString createdAt ++ '|' :: uuidText id).splitOn '|' =
      [IsoDate.toISOString createdAt, uuidText id] := by
    have hiso' : '|' ∉ IsoDate.toISOString createdAt := fun h => hiso _ h rfl
    have huuid' : '|' ∉ uuidText id := fun h => huuid _ h rfl
    rw [splitOn_append_cons_self_of_not_mem hiso', splitOn_eq_singleton huuid']
  rw [decodeWishlistCursor, if_neg (not_lt.2 (length_encodeWishlistCursor createdAt id)),
    encodeWishlistCursor, Base64url.decode_encode, Utf8.decode_encode, hsplit]
  simp only [IsoDate.parse_toISOString hyear, readUuid_uuidText hid, Option.bind_some,
    Option.map_some]

/-! ## Pages -/

namespace WishlistSavedItemEntity

/-- A row's place in the order of the list. -/
def place (w : WishlistSavedItemEntity) : ℤ ×ₗ ℕ := toLex (w.createdAt, w.id)

/-- The place that the cursor of a row stands for: a `Date` has milliseconds. -/
def cursor (w : WishlistSavedItemEntity) : ℤ ×ₗ ℕ := toLex (w.createdAt / 1000 * 1000, w.id)

theorem cursor_le (w : WishlistSavedItemEntity) : w.cursor ≤ w.place := by
  rw [cursor, place, Prod.Lex.toLex_le_toLex]
  omega

/-- The text that a row is continued by stands for its cursor. -/
theorem decode_cursor {w : WishlistSavedItemEntity} (hid : w.id < 16 ^ 32)
    (hyear : 0 ≤ IsoDate.year (w.createdAt / 1000) ∧ IsoDate.year (w.createdAt / 1000) < 10000) :
    (decodeWishlistCursor (encodeWishlistCursor (w.createdAt / 1000) w.id)).map
      (fun c => toLex (c.1 * 1000, c.2)) = some w.cursor := by
  rw [decode_encodeWishlistCursor hyear hid, Option.map_some, cursor]

end WishlistSavedItemEntity

/-- `ORDER BY created_at DESC, id DESC`. -/
def newestFirst (items : List WishlistSavedItemEntity) : List WishlistSavedItemEntity :=
  items.mergeSort fun a b => b.place ≤ a.place

/-- A page, and the cursor of the next one. -/
def list (items : List WishlistSavedItemEntity) (userId : Uuid) (limit : Option ℚ)
    (cursor : Option (ℤ ×ₗ ℕ)) : List WishlistSavedItemEntity × Option (ℤ ×ₗ ℕ) :=
  let pageSize := clampPageSize limit
  let rows := (newestFirst (items.filter fun w =>
    w.userId = userId ∧ ∀ c ∈ cursor, w.place < c)).take (pageSize + 1)
  let page := rows.take pageSize
  (page, if pageSize < rows.length then page.getLast?.map (·.cursor) else none)

/-- The pages, up to the one that has no cursor. -/
def followPages (items : List WishlistSavedItemEntity) (userId : Uuid) (limit : Option ℚ) :
    ℕ → Option (ℤ ×ₗ ℕ) → Option (List WishlistSavedItemEntity)
  | 0, _ => none
  | n + 1, cursor =>
    match list items userId limit cursor with
    | (page, none) => some page
    | (page, some c) => (followPages items userId limit n (some c)).map (page ++ ·)

/-- All rows of the user. -/
def saved (items : List WishlistSavedItemEntity) (userId : Uuid) : List WishlistSavedItemEntity :=
  newestFirst (items.filter fun w => w.userId = userId)

variable {items s : List WishlistSavedItemEntity} {userId : Uuid} {limit : Option ℚ}
  {cursor : Option (ℤ ×ₗ ℕ)}

theorem pairwise_newestFirst (hids : (items.map (·.id)).Nodup) :
    (newestFirst items).Pairwise fun a b => b.place < a.place := by
  have hsort : (newestFirst items).Pairwise fun a b => b.place ≤ a.place := by
    simpa [newestFirst] using @pairwise_mergeSort _ (fun a b => decide (b.place ≤ a.place))
      (fun a b c hab hbc => by simp_all; exact hbc.trans hab) (fun a b => by simp [le_total]) items
  have hne : (newestFirst items).Pairwise fun a b => a.id ≠ b.id :=
    pairwise_map.1 (((mergeSort_perm items _).map _).nodup_iff.2 hids)
  refine (hsort.and hne).imp fun {a b} h => lt_of_le_of_ne h.1 fun heq => h.2 ?_
  exact congrArg (fun p => (ofLex p).2) heq.symm

theorem pairwise_saved (hids : (items.map (·.id)).Nodup) (userId : Uuid) :
    (saved items userId).Pairwise fun a b => b.place < a.place :=
  pairwise_newestFirst (hids.sublist (filter_sublist.map _))

theorem list_eq (hids : (items.map (·.id)).Nodup)
    (hs : s = (saved items userId).filter fun w => ∀ c ∈ cursor, w.place < c) :
    list items userId limit cursor = (s.take (clampPageSize limit),
      if clampPageSize limit < s.length then
        (s.take (clampPageSize limit)).getLast?.map (·.cursor) else none) := by
  have hrows : newestFirst (items.filter fun w => w.userId = userId ∧ ∀ c ∈ cursor, w.place < c) =
      s := by
    refine Perm.eq_of_pairwise
      (fun a b _ _ (h : b.place < a.place) h' => absurd h (lt_asymm h'))
      (pairwise_newestFirst (hids.sublist (filter_sublist.map _))) ?_ ?_
    · rw [hs]
      exact (pairwise_saved hids userId).filter _
    · rw [hs]
      refine (mergeSort_perm ..).trans (.trans (.of_eq ?_) ((mergeSort_perm ..).filter _).symm)
      simp [Bool.and_comm]
  have hmin : min (clampPageSize limit) (clampPageSize limit + 1) = clampPageSize limit := by omega
  have hmore : clampPageSize limit < min (clampPageSize limit + 1) s.length ↔
      clampPageSize limit < s.length := by omega
  simp only [list, hrows, take_take, length_take, hmin, hmore]

theorem filter_lt_eq {init rest : List WishlistSavedItemEntity} {x : WishlistSavedItemEntity}
    (h : (init ++ x :: rest).Pairwise fun a b => b.place < a.place) :
    (init ++ x :: rest).filter (fun w => w.place < x.place) = rest := by
  obtain ⟨-, hrest, hinit⟩ := pairwise_append.1 h
  rw [filter_append, filter_eq_nil_iff.2, filter_cons_of_neg (by simp), nil_append,
    filter_eq_self.2]
  · exact fun w hw => decide_eq_true ((pairwise_cons.1 hrest).1 w hw)
  · exact fun w hw => by simpa using (hinit w hw x mem_cons_self).le

theorem followPages_eq (userId : Uuid) (limit : Option ℚ) (hids : (items.map (·.id)).Nodup)
    (n : ℕ) (cursor : Option (ℤ ×ₗ ℕ))
    (hs : s = (saved items userId).filter fun w => ∀ c ∈ cursor, w.place < c) (hn : s.length < n) :
    ∃ visited, followPages items userId limit n cursor = some visited ∧ visited <+ s ∧
      ((∀ w ∈ saved items userId, w.cursor = w.place) → visited = s) := by
  induction n generalizing cursor s with
  | zero => omega
  | succ n ih =>
    rw [followPages, list_eq hids hs]
    by_cases hmore : clampPageSize limit < s.length
    · have hpos := clampPageSize_pos limit
      obtain ⟨init, x, hpage⟩ : ∃ init x, s.take (clampPageSize limit) = init ++ [x] :=
        (eq_nil_or_concat' _).resolve_left fun hnil => by
          have hlen := congrArg List.length hnil
          rw [length_take, length_nil] at hlen
          omega
      have hsplit : s = init ++ x :: s.drop (clampPageSize limit) := by
        rw [← singleton_append, ← append_assoc, ← hpage, take_append_drop]
      have hx : x ∈ s := by
        rw [hsplit]
        exact mem_append_right _ mem_cons_self
      -- the rows before `x` are among those that are left
      have hrest : (saved items userId).filter (fun w => w.place < x.place) =
          s.drop (clampPageSize limit) := by
        have hfilter := filter_lt_eq (hsplit ▸ hs ▸ (pairwise_saved hids userId).filter _)
        rw [← hsplit, hs, filter_filter, ← hs] at hfilter
        rw [← hfilter]
        refine filter_congr fun w _ => ?_
        rw [hs, mem_filter] at hx
        have hbelow : w.place < x.place → ∀ c ∈ cursor, w.place < c :=
          fun hlt c hc => hlt.trans (of_decide_eq_true hx.2 c hc)
        by_cases hlt : w.place < x.place
        · simpa [hlt] using hbelow hlt
        · simp [hlt]
      have hnext : (saved items userId).filter (fun w => ∀ c ∈ some x.cursor, w.place < c) =
          (s.drop (clampPageSize limit)).filter fun w => w.place < x.cursor := by
        rw [← hrest, filter_filter]
        refine filter_congr fun w _ => ?_
        simpa using fun hlt => hlt.trans_le x.cursor_le
      have hlen := (filter_sublist (l := s.drop (clampPageSize limit))
        (p := fun w => w.place < x.cursor)).length_le
      rw [length_drop] at hlen
      obtain ⟨visited, hvisited, hsub, hwhole⟩ := ih (some x.cursor) hnext.symm (by omega)
      refine ⟨init ++ [x] ++ visited, ?_, ?_, fun h => ?_⟩
      · simp [hmore, hpage, hvisited]
      · conv_rhs => rw [← take_append_drop (clampPageSize limit) s, hpage]
        exact (hsub.trans filter_sublist).append_left _
      · rw [hs] at hx
        rw [hwhole h, h x (mem_filter.1 hx).1, filter_eq_self.2, ← hpage, take_append_drop]
        intro w hw
        rw [← hrest] at hw
        exact (mem_filter.1 hw).2
    · simp [hmore, take_of_length_le (not_lt.1 hmore)]

/-- A client that follows the cursors comes to an end, and has seen rows of the user only, newest
first and none twice; where every row was saved at a whole millisecond, it has seen them all. -/
theorem followPages_visits (userId : Uuid) (limit : Option ℚ) (hids : (items.map (·.id)).Nodup) :
    ∃ visited, followPages items userId limit (items.length + 1) none = some visited ∧
      visited <+ saved items userId ∧ visited.Pairwise (fun a b => b.place < a.place) ∧
      ((∀ w ∈ saved items userId, w.cursor = w.place) → visited = saved items userId) := by
  have hlen : (saved items userId).length < items.length + 1 := by
    rw [saved, newestFirst, length_mergeSort]
    exact Nat.lt_succ_of_le (length_filter_le _ _)
  obtain ⟨visited, hvisited, hsub, hwhole⟩ :=
    followPages_eq userId limit hids (items.length + 1) none (by simp) hlen
  exact ⟨visited, hvisited, hsub, (pairwise_saved hids userId).sublist hsub, hwhole⟩

/-- Two items, saved at once. -/
def twoItems : List WishlistSavedItemEntity :=
  [⟨1, 5, ⟨.service, 8⟩, 1000⟩, ⟨2, 5, ⟨.service, 9⟩, 1000⟩]

theorem followPages_visits_two :
    followPages twoItems 5 (some 1) 3 none = some (saved twoItems 5) := by
  obtain ⟨_, hvisited, -, -, hwhole⟩ :=
    @followPages_visits twoItems 5 (some 1) (by decide)
  have hcursor : ∀ w ∈ saved twoItems 5, w.cursor = w.place := by
    intro w hw
    have hmem : w ∈ twoItems := (mem_filter.1 ((mergeSort_perm ..).mem_iff.1 hw)).1
    have hall : ∀ w ∈ twoItems, w.cursor = w.place := by decide
    exact hall w hmem
  rw [← hwhole hcursor]
  exact hvisited

end BeauClick.Wishlist
