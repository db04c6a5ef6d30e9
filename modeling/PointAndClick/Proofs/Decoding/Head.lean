import PointAndClick.Proofs.Encoding.RecordCodec

/-!
# Operations of a cursor step by step

`Cursor.apply` gives a cursor for each operation that succeeds, and nothing to go on with for one
that fails. How the position fares in between is said by `Head.perform`: an operation is a row of
steps (check how many bytes are left, take a byte, move on) on a head whose position may be any
integer, that stays where the steps before a failure left it, and that stops if it is made to take
a byte where there is none.

Of a head that stands inside its buffer both make the same (`Head.perform_head`). So no byte is ever
taken where there is none, and a failure leaves the head where it was.
-/

set_option autoImplicit false

namespace PointAndClick

/-- A buffer and a position that may be anywhere: nothing but the checks of the operations keeps it
inside. -/
structure Head where
  buffer : Buffer
  pos : Int
deriving DecidableEq, Repr

/-- The head of a cursor. -/
def Cursor.head (c : Cursor) : Head := ⟨c.buffer, c.pos⟩

@[simp] theorem Cursor.head_buffer (c : Cursor) : c.head.buffer = c.buffer := rfl

@[simp] theorem Cursor.head_pos (c : Cursor) : c.head.pos = c.pos := rfl

namespace Head

/-! ## Steps -/

/-- Why an operation stops. -/
inductive Stop
  /-- A check turned it down. -/
  | refused (e : DecodeError)
  /-- It took a byte where there is none. -/
  | noByte (place : Int)
deriving DecidableEq, Repr

/-- Something done with a head, which it moves also where it stops. -/
abbrev Steps (α : Type) : Type := ExceptT Stop (StateM Head) α

/-- How many bytes are left behind the position, less than none if it is outside. -/
def remaining (h : Head) : Int := h.buffer.size - h.pos

/-- Takes the byte at a place. -/
def load (place : Int) : Steps UInt8 := fun h =>
  match if place < 0 then none else h.buffer[place.toNat]? with
  | some x => (.ok x, h)
  | none => (.error (.noByte place), h)

/-- Takes some bytes in a row. -/
def loads : Nat → Int → Steps (List UInt8)
  | 0, _ => pure []
  | count + 1, place => do
    let x ← load place
    return x :: (← loads count (place + 1))

/-- Moves on. -/
def move (count : Int) : Steps Unit := modify fun h => { h with pos := h.pos + count }

/-- Checks that so many bytes are left. -/
def require (count : Int) : Steps Unit := fun h =>
  if count < 0 ∨ h.remaining < count then
    (.error (.refused (.shortRead count h.remaining.toNat h.pos.toNat)), h)
  else (.ok (), h)

/-- Passes over some bytes. -/
def skip (count : Int) : Steps Unit := do
  require count
  move count

/-- Takes the bytes at the position, and moves behind them. -/
def take (count : Int) : Steps (List UInt8) := do
  require count
  let bytes ← loads count.toNat (← get).pos
  move count
  return bytes

/-- Takes the four bytes some way from the position. -/
def peek (offset : Int) : Steps (List UInt8) := do
  let h ← get
  if h.pos + offset < 0 ∨ h.buffer.size < h.pos + offset + 4 then
    throw (.refused (.peekOutside (h.pos + offset)))
  else loads 4 (h.pos + offset)

/-! ## What bytes say -/

/-- The number of some bytes, the lowest first. -/
def unsigned (bytes : List UInt8) : Nat :=
  bytes.foldr (fun x n => x.toNat + 0x100 * n) 0

/-- The number of four bytes in two's complement. -/
def signed (bytes : List UInt8) : Int :=
  if unsigned bytes < 0x80000000 then unsigned bytes else unsigned bytes - 0x100000000

/-! ## Operations -/

/-- Moves to a position of the buffer, its end included. -/
def seek (target : Int) : Steps Unit := do
  let h ← get
  if target < 0 ∨ h.buffer.size < target then
    throw (.refused (.seekOutside target h.buffer.size h.pos.toNat))
  else set { h with pos := target }

/-- Takes a length-prefixed text, or nothing if none can be there. -/
def text? : Steps (Option String) := do
  let h ← get
  if h.remaining < 4 then return none
  else
    let length := unsigned (← loads 4 h.pos)
    if length = 0 then
      move 4
      return some ""
    else if Buffer.maxTextLength < length ∨ h.remaining - 4 < length then return none
    else
      move (4 + length)
      return some (Buffer.textOf (← loads length (h.pos + 4)))

/-- Takes a length-prefixed text, or passes over its length if none can be there. -/
def textOrEmpty : Steps String := do
  match ← text? with
  | some text => return text
  | none =>
    skip 4
    return ""

/-- Does an operation. -/
def perform : Cursor.Operation → Steps Cursor.Value
  | .seek target => do
    seek target
    return .nothing
  | .skip count => do
    skip count
    return .nothing
  | .readByte => return .number (unsigned (← take 1))
  | .readHalf => return .number (unsigned (← take 2))
  | .readWord => return .number (unsigned (← take 4))
  | .readSigned => return .number (signed (← take 4))
  | .readBytes count => return .bytes (← take count)
  | .readText => return .text (← text?)
  | .readTextOrEmpty => return .text (some (← textOrEmpty))
  | .readPadded width =>
    return .text (some (Buffer.textOf (Decoder.dropZerosEnd (← take width))))
  | .peekWord offset => return .number (unsigned (← peek offset))
  | .peekSigned offset => return .number (signed (← peek offset))
  | .canRead count => return .flag (0 ≤ count && count ≤ (← get).remaining)
  | .atEnd => do
    let h ← get
    return .flag (h.buffer.size ≤ h.pos)
  | .describe => do
    let h ← get
    return .text (some s!"ByteCursor(pos=0x{Text.hexadecimal h.pos}, size={h.buffer.size})")

/-! ## Taking bytes -/

variable {α β : Type} {b : Buffer} {pos : Nat}

theorem bind_apply (steps : Steps α) (next : α → Steps β) (h : Head) :
    (steps >>= next) h = match steps h with
      | (.ok a, after) => next a after
      | (.error e, after) => (.error e, after) := by
  show (ExceptT.bindCont next (steps h).1) (steps h).2 = _
  rcases steps h with ⟨_ | a, after⟩ <;> rfl

theorem get_bind (next : Head → Steps β) (h : Head) : (get >>= next) h = next h h := rfl

theorem move_bind (count : Int) (next : Unit → Steps β) (h : Head) :
    (move count >>= next) h = next () ⟨h.buffer, h.pos + count⟩ := rfl

theorem slice_succ (hpos : pos < b.size) (count : Nat) :
    b.slice pos (count + 1) = b[pos] :: b.slice (pos + 1) count := by
  have hdrop : b.toList.drop pos = b[pos] :: b.toList.drop (pos + 1) := by
    rw [List.drop_eq_getElem_cons (by simpa using hpos)]
    rfl
  rw [Buffer.slice_eq, Buffer.slice_eq, hdrop, List.take_succ_cons]

/-- Bytes that are there can be taken. -/
theorem loads_apply {count : Nat} (hsize : pos + count ≤ b.size) (place : Int) :
    loads count pos ⟨b, place⟩ = (.ok (b.slice pos count), ⟨b, place⟩) := by
  induction count generalizing pos with
  | zero => rw [Buffer.slice_eq, List.take_zero]; rfl
  | succ count ih =>
      have hload : load pos ⟨b, place⟩ = (.ok b[pos], ⟨b, place⟩) := by
        have hnonneg : ¬(pos : Int) < 0 := by omega
        simp only [load, if_neg hnonneg, Int.toNat_natCast,
          Array.getElem?_eq_getElem (show pos < b.size by omega)]
      have hnext : (pos : Int) + 1 = (pos + 1 : Nat) := rfl
      rw [loads, bind_apply, hload]
      simp only
      rw [bind_apply, hnext, ih (by omega), slice_succ (by omega)]
      rfl

/-! ## Steps and cursors -/

/-- What a cursor gives, and the head that it leaves: its own if it failed. -/
def leaves (c : Cursor) : Except DecodeError (α × Cursor) → Except Stop α × Head
  | .ok (a, after) => (.ok a, after.head)
  | .error e => (.error (.refused e), c.head)

/-- On a head inside its buffer some steps make the same as a function on cursors. -/
def Follows (steps : Steps α) (f : Cursor → Except DecodeError (α × Cursor)) : Prop :=
  ∀ c : Cursor, c.pos ≤ c.buffer.size → steps c.head = leaves c (f c)

theorem Follows.map {steps : Steps α} {f : Cursor → Except DecodeError (α × Cursor)}
    (h : Follows steps f) (g : α → β) :
    Follows (steps >>= fun a => pure (g a)) fun c => (f c).map fun r => (g r.1, r.2) := by
  intro c hc
  have hsteps := h c hc
  show _ = leaves c ((f c).map fun r => (g r.1, r.2))
  rw [bind_apply, hsteps]
  cases f c <;> rfl

theorem remaining_head {c : Cursor} (hc : c.pos ≤ c.buffer.size) :
    c.head.remaining = c.remaining := by
  simp only [remaining, Cursor.head, Cursor.remaining]
  omega

/-- The check goes by what the cursor has left. -/
theorem require_head {c : Cursor} (hc : c.pos ≤ c.buffer.size) (count : Int) :
    require count c.head =
      if count < 0 ∨ c.remaining < count then
        (.error (.refused (.shortRead count c.remaining c.pos)), c.head)
      else (.ok (), c.head) := by
  rw [require, remaining_head hc]
  rfl

theorem short_of_lt {c : Cursor} (hc : c.pos ≤ c.buffer.size) {count : Nat}
    (hsize : c.buffer.size < c.pos + count) : (c.remaining : Int) < count := by
  simp only [Cursor.remaining]
  omega

theorem not_short_of_le {c : Cursor} {count : Nat} (hsize : c.pos + count ≤ c.buffer.size) :
    ¬((count : Int) < 0 ∨ (c.remaining : Int) < count) := by
  simp only [Cursor.remaining]
  omega

theorem take_head {c : Cursor} {count : Nat} (hsize : c.pos + count ≤ c.buffer.size) :
    take count c.head =
      (.ok (c.buffer.slice c.pos count), (⟨c.buffer, c.pos + count⟩ : Cursor).head) := by
  have hc : c.pos ≤ c.buffer.size := by omega
  have hloads : loads count c.pos c.head = (.ok (c.buffer.slice c.pos count), c.head) :=
    loads_apply hsize c.pos
  rw [take, bind_apply, require_head hc, if_neg (not_short_of_le hsize)]
  show (loads count c.pos >>= _) c.head = _
  rw [bind_apply, hloads]
  rfl

theorem take_head_of_short {c : Cursor} (hc : c.pos ≤ c.buffer.size) {count : Int}
    (hshort : count < 0 ∨ c.remaining < count) :
    take count c.head = (.error (.refused (.shortRead count c.remaining c.pos)), c.head) := by
  rw [take, bind_apply, require_head hc, if_pos hshort]

theorem follows_take (count : Int) :
    Follows (take count) fun c => c.readCount count Decoder.bytes := by
  intro c hc
  show _ = leaves c (c.readCount count Decoder.bytes)
  rw [Cursor.readCount]
  by_cases hneg : count < 0
  · rw [if_pos hneg, take_head_of_short hc (.inl hneg)]
    rfl
  · obtain ⟨n, rfl⟩ := Int.eq_ofNat_of_zero_le (Int.not_lt.mp hneg)
    rw [if_neg hneg, Int.toNat_natCast, Cursor.read, Decoder.bytes, Decoder.fixed]
    by_cases hsize : c.pos + n ≤ c.buffer.size
    · rw [take_head hsize, if_neg (by omega)]
      rfl
    · rw [take_head_of_short hc (.inr (short_of_lt hc (Nat.lt_of_not_le hsize))), if_pos (by omega)]
      rfl

/-- A value of fixed width is what is said by the bytes which it takes. -/
theorem readCount_map {width : Nat} {value : Buffer → Nat → α} {reading : List UInt8 → α}
    (hreading : ∀ (b : Buffer) (pos : Nat), pos + width ≤ b.size →
      reading (b.slice pos width) = value b pos) (g : α → β) (c : Cursor) :
    (c.readCount width Decoder.bytes).map (fun r => (g (reading r.1), r.2)) =
      (c.read (Decoder.fixed width value)).map fun r => (g r.1, r.2) := by
  rw [Cursor.readCount, if_neg (by omega), Int.toNat_natCast, Cursor.read, Cursor.read,
    Decoder.bytes, Decoder.fixed, Decoder.fixed]
  by_cases hsize : c.pos + width ≤ c.buffer.size
  · rw [if_neg (by omega), if_neg (by omega), ← hreading _ _ hsize]
    rfl
  · rw [if_pos (by omega), if_pos (by omega)]
    rfl

theorem follows_fixed {width : Nat} {value : Buffer → Nat → α} {reading : List UInt8 → α}
    (hreading : ∀ (b : Buffer) (pos : Nat), pos + width ≤ b.size →
      reading (b.slice pos width) = value b pos) (g : α → β) :
    Follows (take width >>= fun bytes => pure (g (reading bytes)))
      fun c => (c.read (Decoder.fixed width value)).map fun r => (g r.1, r.2) := by
  intro c hc
  show _ = leaves c ((c.read (Decoder.fixed width value)).map fun r => (g r.1, r.2))
  rw [← readCount_map hreading]
  exact (follows_take width).map (fun bytes => g (reading bytes)) c hc

theorem skip_head {c : Cursor} {count : Nat} (hsize : c.pos + count ≤ c.buffer.size) :
    skip count c.head = (.ok (), (⟨c.buffer, c.pos + count⟩ : Cursor).head) := by
  have hc : c.pos ≤ c.buffer.size := by omega
  rw [skip, bind_apply, require_head hc, if_neg (not_short_of_le hsize)]
  rfl

theorem skip_head_of_short {c : Cursor} (hc : c.pos ≤ c.buffer.size) {count : Int}
    (hshort : count < 0 ∨ c.remaining < count) :
    skip count c.head = (.error (.refused (.shortRead count c.remaining c.pos)), c.head) := by
  rw [skip, bind_apply, require_head hc, if_pos hshort]

theorem follows_skip (count : Int) :
    Follows (skip count) fun c => c.readCount count Decoder.skip := by
  intro c hc
  show _ = leaves c (c.readCount count Decoder.skip)
  rw [Cursor.readCount]
  by_cases hneg : count < 0
  · rw [if_pos hneg, skip_head_of_short hc (.inl hneg)]
    rfl
  · obtain ⟨n, rfl⟩ := Int.eq_ofNat_of_zero_le (Int.not_lt.mp hneg)
    rw [if_neg hneg, Int.toNat_natCast, Cursor.read, Decoder.skip]
    by_cases hsize : c.pos + n ≤ c.buffer.size
    · rw [skip_head hsize, if_neg (by omega)]
      rfl
    · rw [skip_head_of_short hc (.inr (short_of_lt hc (Nat.lt_of_not_le hsize))), if_pos (by omega)]
      rfl

theorem follows_seek (target : Int) (a : α) :
    Follows (seek target >>= fun _ => pure a)
      fun c => (c.seek target).map fun after => (a, after) := by
  intro c hc
  show _ = leaves c ((c.seek target).map fun after => (a, after))
  rw [bind_apply, seek, get_bind, Cursor.head_buffer, Cursor.seek]
  by_cases hbounds : target < 0 ∨ (c.buffer.size : Int) < target
  · rw [if_pos hbounds, if_pos hbounds]
    rfl
  · obtain ⟨n, rfl⟩ := Int.eq_ofNat_of_zero_le (a := target) (by omega)
    rw [if_neg hbounds, if_neg hbounds]
    rfl

theorem peek_head {c : Cursor} {offset : Int} {place : Nat} (hplace : c.pos + offset = place)
    (hsize : place + 4 ≤ c.buffer.size) :
    peek offset c.head = (.ok (c.buffer.slice place 4), c.head) := by
  have hbounds : ¬((place : Int) < 0 ∨ (c.buffer.size : Int) < place + 4) := by omega
  rw [peek, get_bind, Cursor.head_buffer, Cursor.head_pos, hplace, if_neg hbounds]
  exact loads_apply hsize c.pos

theorem peek_head_of_outside {c : Cursor} {offset : Int}
    (hbounds : (c.pos : Int) + offset < 0 ∨ (c.buffer.size : Int) < c.pos + offset + 4) :
    peek offset c.head = (.error (.refused (.peekOutside (c.pos + offset))), c.head) := by
  rw [peek, get_bind, Cursor.head_buffer, Cursor.head_pos, if_pos hbounds]
  rfl

theorem follows_peek {value : Buffer → Nat → α} {reading : List UInt8 → α}
    (hreading : ∀ (b : Buffer) (pos : Nat), pos + 4 ≤ b.size →
      reading (b.slice pos 4) = value b pos)
    (g : α → β) (offset : Int) :
    Follows (peek offset >>= fun bytes => pure (g (reading bytes)))
      fun c => (c.peek offset value).map fun v => (g v, c) := by
  intro c hc
  show _ = leaves c ((c.peek offset value).map fun v => (g v, c))
  rw [bind_apply, Cursor.peek]
  by_cases hbounds : (c.pos : Int) + offset < 0 ∨ (c.buffer.size : Int) < c.pos + offset + 4
  · rw [peek_head_of_outside hbounds, if_pos hbounds]
    rfl
  · obtain ⟨place, hplace⟩ := Int.eq_ofNat_of_zero_le (a := c.pos + offset) (by omega)
    have hsize : place + 4 ≤ c.buffer.size := by omega
    rw [peek_head hplace hsize, if_neg hbounds, hplace, Int.toNat_natCast, ← hreading _ _ hsize]
    rfl

/-! ## Numbers -/

@[simp] theorem unsigned_slice_zero (b : Buffer) (pos : Nat) : unsigned (b.slice pos 0) = 0 := by
  rw [Buffer.slice_eq, List.take_zero]
  rfl

theorem unsigned_slice_succ (hpos : pos < b.size) (count : Nat) :
    unsigned (b.slice pos (count + 1)) =
      b.byteAt pos + 0x100 * unsigned (b.slice (pos + 1) count) := by
  rw [slice_succ hpos, Buffer.byteAt, Array.getElem?_eq_getElem hpos]
  rfl

theorem unsigned_slice_one (hsize : pos + 1 ≤ b.size) :
    unsigned (b.slice pos 1) = b.byteAt pos := by
  rw [unsigned_slice_succ hsize, unsigned_slice_zero, Nat.mul_zero, Nat.add_zero]

theorem unsigned_slice_two (hsize : pos + 2 ≤ b.size) :
    unsigned (b.slice pos 2) = b.halfAt pos := by
  rw [unsigned_slice_succ (by omega), unsigned_slice_one (by omega), Buffer.halfAt]

theorem unsigned_slice_four (hsize : pos + 4 ≤ b.size) :
    unsigned (b.slice pos 4) = b.wordAt pos := by
  rw [unsigned_slice_succ (by omega), unsigned_slice_succ (by omega),
    unsigned_slice_two (by omega)]
  simp only [Buffer.wordAt, Buffer.halfAt, Nat.add_assoc, Nat.reduceAdd]
  omega

theorem signed_slice (hsize : pos + 4 ≤ b.size) : signed (b.slice pos 4) = b.signedAt pos := by
  rw [signed, unsigned_slice_four hsize, Buffer.signedAt]

/-! ## Texts -/

theorem follows_text? : Follows text? fun c => c.read Decoder.text? := by
  intro c hc
  show _ = leaves c (c.read Decoder.text?)
  rw [text?, get_bind, Cursor.head_pos, remaining_head hc, Cursor.read, Decoder.text?,
    Buffer.textAt?]
  have hremaining : (c.remaining : Int) = c.buffer.size - c.pos := remaining_head hc ▸ rfl
  by_cases hshort : c.buffer.size < c.pos + 4
  · rw [if_pos (by omega), if_pos hshort]
    rfl
  · have hfield : c.pos + 4 ≤ c.buffer.size := Nat.not_lt.mp hshort
    have hloads : loads 4 c.pos c.head = (.ok (c.buffer.slice c.pos 4), c.head) :=
      loads_apply hfield c.pos
    rw [if_neg (by omega), if_neg hshort, bind_apply, hloads]
    simp only [unsigned_slice_four hfield]
    generalize c.buffer.wordAt c.pos = length
    by_cases hzero : length = 0
    · have hplausible : ¬(Buffer.maxTextLength < length ∨ c.buffer.size < c.pos + 4 + length) := by
        omega
      rw [if_pos hzero, if_neg hplausible, hzero, Buffer.slice_eq, List.take_zero]
      rfl
    · rw [if_neg hzero]
      have hroom : (Buffer.maxTextLength < length ∨ (c.remaining : Int) - 4 < length) ↔
          (Buffer.maxTextLength < length ∨ c.buffer.size < c.pos + 4 + length) := by
        omega
      by_cases hlong : Buffer.maxTextLength < length ∨ c.buffer.size < c.pos + 4 + length
      · rw [if_pos (hroom.mpr hlong), if_pos hlong]
        rfl
      · have hstop : (c.pos : Int) + (4 + length) = (c.pos + 4 + length : Nat) := by omega
        have htext : loads length ((c.pos : Int) + 4) ⟨c.buffer, (c.pos + 4 + length : Nat)⟩ =
            (.ok (c.buffer.slice (c.pos + 4) length), ⟨c.buffer, (c.pos + 4 + length : Nat)⟩) :=
          loads_apply (show c.pos + 4 + length ≤ c.buffer.size by omega) _
        rw [if_neg (fun h => hlong (hroom.mp h)), if_neg hlong, move_bind, Cursor.head_buffer,
          Cursor.head_pos, hstop, bind_apply, htext]
        rfl

theorem read_textOrEmpty (c : Cursor) :
    c.read Decoder.textOrEmpty = match c.buffer.textAt? c.pos with
      | some (s, stop) => .ok (s, ⟨c.buffer, stop⟩)
      | none => (c.readCount 4 Decoder.skip).map fun r => ("", r.2) := by
  rw [Decoder.textOrEmpty, Cursor.read_bind, Cursor.read, Decoder.text?]
  cases c.buffer.textAt? c.pos with
  | some r => rfl
  | none =>
      show c.read (Decoder.skip 4 >>= fun _ => pure "") = _
      rw [Cursor.read_bind]
      cases hskip : c.read (Decoder.skip 4) <;> simp [Cursor.readCount, hskip] <;> rfl

/-- Where no text can be there, the head has not moved when the length is passed over. -/
theorem textOrEmpty_head {c : Cursor} (hc : c.pos ≤ c.buffer.size) :
    textOrEmpty c.head = match c.buffer.textAt? c.pos with
      | some (s, stop) => (.ok s, (⟨c.buffer, stop⟩ : Cursor).head)
      | none => (skip 4 >>= fun _ => pure "") c.head := by
  have htext : text? c.head = leaves c (c.read Decoder.text?) := follows_text? c hc
  rw [textOrEmpty, bind_apply, htext, Cursor.read, Decoder.text?]
  cases c.buffer.textAt? c.pos <;> rfl

theorem follows_textOrEmpty : Follows textOrEmpty fun c => c.read Decoder.textOrEmpty := by
  intro c hc
  show _ = leaves c (c.read Decoder.textOrEmpty)
  rw [textOrEmpty_head hc, read_textOrEmpty]
  cases c.buffer.textAt? c.pos with
  | some r => rfl
  | none => exact (follows_skip 4).map (fun _ => "") c hc

/-! ## Operations -/

theorem readCount_paddedText (width : Int) (c : Cursor) :
    c.readCount width Decoder.paddedText = (c.readCount width Decoder.bytes).map fun r =>
      (Buffer.textOf (Decoder.dropZerosEnd r.1), r.2) := by
  rw [Cursor.readCount, Cursor.readCount]
  split
  · rfl
  · rw [Decoder.paddedText, Cursor.read_bind]
    cases c.read (Decoder.bytes width.toNat) <;> rfl

theorem follows_paddedText (width : Int) (g : String → β) :
    Follows
      (take width >>= fun bytes => pure (g (Buffer.textOf (Decoder.dropZerosEnd bytes))))
      fun c => (c.readCount width Decoder.paddedText).map fun r => (g r.1, r.2) := by
  have htake := (follows_take width).map fun bytes =>
    g (Buffer.textOf (Decoder.dropZerosEnd bytes))
  intro c hc
  rw [htake c hc]
  simp only [readCount_paddedText]
  cases c.readCount width Decoder.bytes <;> rfl

/-- What the steps of an operation make of a head inside its buffer is what the cursor there makes
of it, and a failure leaves the head where it was. -/
theorem perform_head {c : Cursor} (hc : c.pos ≤ c.buffer.size) (op : Cursor.Operation) :
    perform op c.head = leaves c (c.apply op) := by
  cases op with
  | seek target => exact follows_seek target Cursor.Value.nothing c hc
  | skip count => exact (follows_skip count).map (fun _ => Cursor.Value.nothing) c hc
  | readByte =>
      exact follows_fixed (fun _ _ => unsigned_slice_one)
        (fun n => Cursor.Value.number (n : Nat)) c hc
  | readHalf =>
      exact follows_fixed (fun _ _ => unsigned_slice_two)
        (fun n => Cursor.Value.number (n : Nat)) c hc
  | readWord =>
      exact follows_fixed (fun _ _ => unsigned_slice_four)
        (fun n => Cursor.Value.number (n : Nat)) c hc
  | readSigned => exact follows_fixed (fun _ _ => signed_slice) Cursor.Value.number c hc
  | readBytes count => exact (follows_take count).map Cursor.Value.bytes c hc
  | readText => exact follows_text?.map Cursor.Value.text c hc
  | readTextOrEmpty => exact follows_textOrEmpty.map (fun s => Cursor.Value.text (some s)) c hc
  | readPadded width => exact follows_paddedText width (fun s => Cursor.Value.text (some s)) c hc
  | peekWord offset =>
      have hpeek : perform (.peekWord offset) c.head = leaves c
          ((c.peek offset Buffer.wordAt).map fun n => (Cursor.Value.number (n : Nat), c)) :=
        follows_peek (fun _ _ => unsigned_slice_four) (fun n => Cursor.Value.number (n : Nat))
          offset c hc
      rw [hpeek, Cursor.apply]
      cases c.peek offset Buffer.wordAt <;> rfl
  | peekSigned offset =>
      exact follows_peek (fun _ _ => signed_slice) Cursor.Value.number offset c hc
  | canRead count =>
      show (Except.ok (Cursor.Value.flag (0 ≤ count && count ≤ c.head.remaining)), c.head) = _
      rw [remaining_head hc]
      rfl
  | atEnd =>
      have hflag : decide ((c.buffer.size : Int) ≤ c.pos) = decide (c.buffer.size ≤ c.pos) :=
        decide_eq_decide.mpr Int.ofNat_le
      show (Except.ok (Cursor.Value.flag (decide ((c.buffer.size : Int) ≤ c.pos))), c.head) = _
      rw [hflag]
      rfl
  | describe => rfl

end Head

end PointAndClick
