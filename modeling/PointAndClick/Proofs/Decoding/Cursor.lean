import PointAndClick.Proofs.Decoding.Head

/-!
# Cursors stay inside their buffers

Whatever operations are done one after another, and with whatever arguments, a cursor stands inside
its buffer after each of them (`Head.trace_orderly`). One that fails, or finds no text, leaves it
where it was, and so does one that only looks. What the others give is made from bytes of the
buffer: those that the cursor moved over, or those that were looked at.
-/

set_option autoImplicit false

namespace PointAndClick

namespace Cursor.Operation

/-- The operation only looks, and is not to move the cursor. -/
def looks : Operation → Bool
  | .peekWord _ | .peekSigned _ | .canRead _ | .atEnd | .describe => true
  | .seek _ | .skip _ | .readByte | .readHalf | .readWord | .readSigned | .readBytes _ | .readText
  | .readTextOrEmpty | .readPadded _ => false

/-- Between which positions the bytes stand from which an operation makes its value. A read takes
those between the old position and the new one. -/
def span (pos after : Int) : Operation → Int × Int
  | .peekWord offset | .peekSigned offset => (pos + offset, pos + offset + 4)
  | .seek _ | .skip _ | .canRead _ | .atEnd | .describe => (pos, pos)
  | .readByte | .readHalf | .readWord | .readSigned | .readBytes _ | .readText
  | .readTextOrEmpty | .readPadded _ => (pos, after)

/-- The value that an operation makes from the size of the buffer, the position and some bytes. -/
def value (size : Nat) (pos : Int) (bytes : List UInt8) : Operation → Value
  | .seek _ | .skip _ => .nothing
  | .readByte | .readHalf | .readWord | .peekWord _ => .number (Head.unsigned bytes)
  | .readSigned | .peekSigned _ => .number (Head.signed bytes)
  | .readBytes _ => .bytes bytes
  | .readText | .readTextOrEmpty => .text (some (Buffer.textOf (bytes.drop 4)))
  | .readPadded _ => .text (some (Buffer.textOf (Decoder.dropZerosEnd bytes)))
  | .canRead count => .flag (0 ≤ count && count ≤ size - pos)
  | .atEnd => .flag (size ≤ pos)
  | .describe => .text (some s!"ByteCursor(pos=0x{Text.hexadecimal pos}, size={size})")

end Cursor.Operation

namespace Head

/-! ## Runs of operations -/

/-- The position is one of the buffer, its end included. -/
def IsInside (h : Head) : Prop := 0 ≤ h.pos ∧ h.pos ≤ h.buffer.size

/-- The bytes between two positions. -/
def between (h : Head) (span : Int × Int) : List UInt8 :=
  h.buffer.slice span.1.toNat (span.2 - span.1).toNat

/-- The value is what an operation makes of the bytes between two positions, and these are all in
the buffer. -/
structure Makes (h : Head) (op : Cursor.Operation) (span : Int × Int) (v : Cursor.Value) :
    Prop where
  low : 0 ≤ span.1
  ordered : span.1 ≤ span.2
  high : span.2 ≤ h.buffer.size
  value_eq : v = op.value h.buffer.size h.pos (h.between span)

/-- No text can stand at the position: there is no room for a length, or the length is not
plausible, or there is no room for the text. -/
def HoldsNoText (h : Head) : Prop :=
  h.remaining < 4 ∨ Buffer.maxTextLength < unsigned (h.between (h.pos, h.pos + 4)) ∨
    h.remaining - 4 < unsigned (h.between (h.pos, h.pos + 4))

/-- An operation that was done: the head before it, what came of it, and the head after it. -/
structure Transition where
  operation : Cursor.Operation
  before : Head
  outcome : Except Stop Cursor.Value
  after : Head

/-- Does an operation. -/
def step (h : Head) (op : Cursor.Operation) : Transition :=
  ⟨op, h, (perform op h).1, (perform op h).2⟩

/-- Does some operations, each from where the one before it left the head. -/
def trace : Head → List Cursor.Operation → List Transition
  | _, [] => []
  | h, op :: ops => h.step op :: trace (h.step op).after ops

/-- What is in order about an operation that was done. -/
structure Transition.Orderly (t : Transition) : Prop where
  /-- The position is inside the buffer. -/
  inside : t.after.IsInside
  buffer_eq : t.after.buffer = t.before.buffer
  /-- A failure is one of bounds, and moves nothing. -/
  stopped : ∀ stop, t.outcome = .error stop →
    t.after = t.before ∧ ∃ e, stop = .refused e ∧ e.category = .outOfBounds
  /-- A text is absent only where none can be, which moves nothing. -/
  absent : t.outcome = .ok (.text none) → t.after = t.before ∧ t.before.HoldsNoText
  looked : t.operation.looks = true → t.after = t.before
  /-- What is given is made from bytes inside the buffer. -/
  given : ∀ v, t.outcome = .ok v → v ≠ .text none →
    t.before.Makes t.operation (t.operation.span t.before.pos t.after.pos) v
  /-- A cursor that stands there does the same. -/
  applied : ∃ c : Cursor, t.before = c.head ∧
    (t.outcome, t.after) = leaves c (c.apply t.operation)

/-! ## Single operations -/

variable {c : Cursor} {op : Cursor.Operation}

theorem isInside_head (hc : c.pos ≤ c.buffer.size) : c.head.IsInside :=
  ⟨Int.natCast_nonneg c.pos, Int.ofNat_le.mpr hc⟩

theorem IsInside.exists_head {h : Head} (hinside : h.IsInside) :
    ∃ c : Cursor, c.pos ≤ c.buffer.size ∧ h = c.head := by
  obtain ⟨b, pos⟩ := h
  obtain ⟨hlow, hhigh⟩ := hinside
  obtain ⟨n, rfl⟩ := Int.eq_ofNat_of_zero_le hlow
  exact ⟨⟨b, n⟩, Int.ofNat_le.mp hhigh, rfl⟩

theorem Transition.Orderly.of_refused (hc : c.pos ≤ c.buffer.size) {e : DecodeError}
    (hperform : perform op c.head = (.error (.refused e), c.head))
    (hcategory : e.category = .outOfBounds) : (c.head.step op).Orderly := by
  have hstep : c.head.step op = ⟨op, c.head, .error (.refused e), c.head⟩ := by
    rw [step, hperform]
  exact {
    inside := hstep ▸ isInside_head hc
    buffer_eq := hstep ▸ rfl
    stopped := fun stop hstop => by
      rw [hstep] at hstop ⊢
      cases hstop
      exact ⟨rfl, e, rfl, hcategory⟩
    absent := fun habsent => by
      rw [hstep] at habsent
      nomatch habsent
    looked := fun _ => hstep ▸ rfl
    given := fun v hv => by
      rw [hstep] at hv
      nomatch hv
    applied := ⟨c, rfl, perform_head hc op⟩ }

theorem Transition.Orderly.of_absent (hc : c.pos ≤ c.buffer.size)
    (hperform : perform op c.head = (.ok (.text none), c.head)) (hnone : c.head.HoldsNoText) :
    (c.head.step op).Orderly := by
  have hstep : c.head.step op = ⟨op, c.head, .ok (.text none), c.head⟩ := by
    rw [step, hperform]
  exact {
    inside := hstep ▸ isInside_head hc
    buffer_eq := hstep ▸ rfl
    stopped := fun stop hstop => by
      rw [hstep] at hstop
      nomatch hstop
    absent := fun _ => hstep ▸ ⟨rfl, hnone⟩
    looked := fun _ => hstep ▸ rfl
    given := fun v hv hne => by
      rw [hstep] at hv
      cases hv
      exact absurd rfl hne
    applied := ⟨c, rfl, perform_head hc op⟩ }

theorem Transition.Orderly.of_given (hc : c.pos ≤ c.buffer.size) {v : Cursor.Value} {stop : Nat}
    (hperform : perform op c.head = (.ok v, (⟨c.buffer, stop⟩ : Cursor).head))
    (hstop : stop ≤ c.buffer.size) (hlooks : op.looks = true → stop = c.pos)
    (hpresent : v ≠ .text none) (hmakes : c.head.Makes op (op.span c.pos stop) v) :
    (c.head.step op).Orderly := by
  have hstep : c.head.step op = ⟨op, c.head, .ok v, (⟨c.buffer, stop⟩ : Cursor).head⟩ := by
    rw [step, hperform]
  exact {
    inside := hstep ▸ isInside_head hstop
    buffer_eq := hstep ▸ rfl
    stopped := fun stop hstop => by
      rw [hstep] at hstop
      nomatch hstop
    absent := fun habsent => by
      rw [hstep] at habsent
      cases habsent
      exact absurd rfl hpresent
    looked := fun h => by
      rw [hstep] at h ⊢
      rw [hlooks h]
    given := fun w hw _ => by
      rw [hstep] at hw ⊢
      cases hw
      exact hmakes
    applied := ⟨c, rfl, perform_head hc op⟩ }

theorem between_head (low high : Nat) :
    c.head.between (low, high) = c.buffer.slice low (high - low) := by
  simp only [between, Cursor.head_buffer, Int.toNat_natCast]
  congr 1
  omega

/-- An operation that takes some bytes and says what they say. -/
theorem orderly_take (hc : c.pos ≤ c.buffer.size) {count : Int}
    {reading : List UInt8 → Cursor.Value}
    (hsteps : perform op = take count >>= fun bytes => pure (reading bytes))
    (hspan : ∀ pos after, op.span pos after = (pos, after))
    (hvalue : ∀ size pos bytes, op.value size pos bytes = reading bytes)
    (hlooks : op.looks = false) (hpresent : ∀ bytes, reading bytes ≠ .text none) :
    (c.head.step op).Orderly := by
  by_cases hshort : count < 0 ∨ c.remaining < count
  · refine .of_refused hc (e := .shortRead count c.remaining c.pos) ?_ rfl
    rw [hsteps, bind_apply, take_head_of_short hc hshort]
  · obtain ⟨n, rfl⟩ := Int.eq_ofNat_of_zero_le (a := count) (by omega)
    have hsize : c.pos + n ≤ c.buffer.size := by
      simp only [Cursor.remaining] at hshort
      omega
    have hperform : perform op c.head =
        (.ok (reading (c.buffer.slice c.pos n)), (⟨c.buffer, c.pos + n⟩ : Cursor).head) := by
      rw [hsteps, bind_apply, take_head hsize]
      rfl
    refine .of_given hc hperform hsize (fun h => absurd h (Bool.eq_false_iff.mp hlooks))
      (hpresent _) ?_
    rw [hspan]
    refine ⟨Int.natCast_nonneg _, by omega, Int.ofNat_le.mpr hsize, ?_⟩
    rw [hvalue, between_head, Nat.add_sub_cancel_left]

/-- An operation that looks at four bytes and says what they say. -/
theorem orderly_peek (hc : c.pos ≤ c.buffer.size) {offset : Int}
    {reading : List UInt8 → Cursor.Value}
    (hsteps : perform op = peek offset >>= fun bytes => pure (reading bytes))
    (hspan : ∀ pos after, op.span pos after = (pos + offset, pos + offset + 4))
    (hvalue : ∀ size pos bytes, op.value size pos bytes = reading bytes)
    (hpresent : ∀ bytes, reading bytes ≠ .text none) :
    (c.head.step op).Orderly := by
  by_cases hbounds : (c.pos : Int) + offset < 0 ∨ (c.buffer.size : Int) < c.pos + offset + 4
  · refine .of_refused hc (e := .peekOutside (c.pos + offset)) ?_ rfl
    rw [hsteps, bind_apply, peek_head_of_outside hbounds]
  · obtain ⟨place, hplace⟩ := Int.eq_ofNat_of_zero_le (a := c.pos + offset) (by omega)
    have hsize : place + 4 ≤ c.buffer.size := by omega
    have hperform : perform op c.head = (.ok (reading (c.buffer.slice place 4)), c.head) := by
      rw [hsteps, bind_apply, peek_head hplace hsize]
      rfl
    refine .of_given hc hperform hc (fun _ => rfl) (hpresent _) ?_
    have hstop : (place : Int) + 4 = (place + 4 : Nat) := rfl
    rw [hspan, hplace, hstop]
    refine ⟨Int.natCast_nonneg _, by omega, Int.ofNat_le.mpr hsize, ?_⟩
    rw [hvalue, between_head, Nat.add_sub_cancel_left]

/-- An operation that gives something said by the position alone. -/
theorem orderly_idle (hc : c.pos ≤ c.buffer.size) {v : Cursor.Value} {stop : Nat}
    (hperform : perform op c.head = (.ok v, (⟨c.buffer, stop⟩ : Cursor).head))
    (hstop : stop ≤ c.buffer.size) (hlooks : op.looks = true → stop = c.pos)
    (hspan : ∀ pos after, op.span pos after = (pos, pos))
    (hvalue : ∀ bytes, v = op.value c.buffer.size c.pos bytes) (hpresent : v ≠ .text none) :
    (c.head.step op).Orderly := by
  refine .of_given hc hperform hstop hlooks hpresent ?_
  rw [hspan]
  exact ⟨Int.natCast_nonneg _, Int.le_refl _, Int.ofNat_le.mpr hc, hvalue _⟩

theorem orderly_seek (hc : c.pos ≤ c.buffer.size) (target : Int) :
    (c.head.step (.seek target)).Orderly := by
  have hperform := perform_head hc (.seek target)
  simp only [Cursor.apply, Cursor.seek] at hperform
  by_cases hbounds : target < 0 ∨ (c.buffer.size : Int) < target
  · rw [if_pos hbounds] at hperform
    exact .of_refused hc hperform rfl
  · rw [if_neg hbounds] at hperform
    exact orderly_idle hc hperform (by omega) (absurd · Bool.false_ne_true)
      (fun _ _ => rfl) (fun _ => rfl) (by decide)

theorem orderly_skip (hc : c.pos ≤ c.buffer.size) (count : Int) :
    (c.head.step (.skip count)).Orderly := by
  by_cases hshort : count < 0 ∨ c.remaining < count
  · refine .of_refused hc (e := .shortRead count c.remaining c.pos) ?_ rfl
    rw [perform, bind_apply, skip_head_of_short hc hshort]
  · obtain ⟨n, rfl⟩ := Int.eq_ofNat_of_zero_le (a := count) (by omega)
    have hsize : c.pos + n ≤ c.buffer.size := by
      simp only [Cursor.remaining] at hshort
      omega
    have hperform : perform (.skip n) c.head =
        (.ok .nothing, (⟨c.buffer, c.pos + n⟩ : Cursor).head) := by
      rw [perform, bind_apply, skip_head hsize]
      rfl
    exact orderly_idle hc hperform hsize (absurd · Bool.false_ne_true) (fun _ _ => rfl)
      (fun _ => rfl) (by decide)

/-! ## Texts -/

theorem holdsNoText_of_textAt? (hc : c.pos ≤ c.buffer.size)
    (hnone : c.buffer.textAt? c.pos = none) : c.head.HoldsNoText := by
  rw [HoldsNoText, remaining_head hc]
  by_cases hshort : c.buffer.size < c.pos + 4
  · exact .inl (short_of_lt hc hshort)
  · have hlong : Buffer.maxTextLength < c.buffer.wordAt c.pos ∨
        c.buffer.size < c.pos + 4 + c.buffer.wordAt c.pos := by
      rw [Buffer.textAt?, if_neg hshort] at hnone
      exact Decidable.of_not_not fun hfits => by
        rw [if_neg hfits] at hnone
        cases hnone
    have hfield : c.head.pos + 4 = (c.pos + 4 : Nat) := rfl
    rw [hfield, Cursor.head_pos, between_head, Nat.add_sub_cancel_left,
      unsigned_slice_four (Nat.not_lt.mp hshort)]
    refine .inr (hlong.imp_right fun hover => ?_)
    simp only [Cursor.remaining]
    omega

/-- A text is what is left of the bytes up to its end without the length. -/
theorem eq_of_textAt? {b : Buffer} {pos stop : Nat} {s : String}
    (hsome : b.textAt? pos = some (s, stop)) :
    s = Buffer.textOf ((b.slice pos (stop - pos)).drop 4) := by
  rw [Buffer.textAt?] at hsome
  split at hsome
  · cases hsome
  · dsimp only at hsome
    split at hsome
    · cases hsome
    · obtain ⟨rfl, rfl⟩ := Prod.mk.inj (Option.some.inj hsome)
      have hlength : pos + 4 + b.wordAt pos - pos - 4 = b.wordAt pos := by omega
      rw [Buffer.slice_eq, Buffer.slice_eq, List.drop_take, List.drop_drop, hlength]

/-- An operation that gives the text at the position, or else does something of its own. -/
theorem orderly_text (hc : c.pos ≤ c.buffer.size) {s : String} {stop : Nat}
    (hsome : c.buffer.textAt? c.pos = some (s, stop))
    (hperform : perform op c.head = (.ok (.text (some s)), (⟨c.buffer, stop⟩ : Cursor).head))
    (hspan : ∀ pos after, op.span pos after = (pos, after))
    (hvalue : ∀ size pos bytes,
      op.value size pos bytes = .text (some (Buffer.textOf (bytes.drop 4))))
    (hlooks : op.looks = false) : (c.head.step op).Orderly := by
  obtain ⟨hnext, hstop⟩ := Buffer.textAt?_bounds hsome
  refine .of_given hc hperform hstop (fun h => absurd h (Bool.eq_false_iff.mp hlooks)) (by simp) ?_
  rw [hspan]
  refine ⟨Int.natCast_nonneg _, by omega, Int.ofNat_le.mpr hstop, ?_⟩
  rw [hvalue, between_head, ← eq_of_textAt? hsome]

theorem orderly_readText (hc : c.pos ≤ c.buffer.size) : (c.head.step .readText).Orderly := by
  have hperform := perform_head hc .readText
  rw [Cursor.apply, Cursor.read, Decoder.text?] at hperform
  cases htext : c.buffer.textAt? c.pos with
  | none =>
      rw [htext] at hperform
      exact .of_absent hc hperform (holdsNoText_of_textAt? hc htext)
  | some r =>
      rw [htext] at hperform
      exact orderly_text hc htext hperform (fun _ _ => rfl) (fun _ _ _ => rfl) rfl

/-- Where there is no text, the length that is passed over stands for an empty one. -/
theorem orderly_readTextOrEmpty (hc : c.pos ≤ c.buffer.size) :
    (c.head.step .readTextOrEmpty).Orderly := by
  have hperform : perform .readTextOrEmpty c.head =
      (textOrEmpty >>= fun s => pure (.text (some s))) c.head := rfl
  rw [bind_apply, textOrEmpty_head hc] at hperform
  cases htext : c.buffer.textAt? c.pos with
  | some r =>
      rw [htext] at hperform
      exact orderly_text hc htext hperform (fun _ _ => rfl) (fun _ _ _ => rfl) rfl
  | none =>
      rw [htext] at hperform
      simp only [bind_apply] at hperform
      by_cases hsize : c.pos + 4 ≤ c.buffer.size
      · have hskip : skip 4 c.head = (.ok (), (⟨c.buffer, c.pos + 4⟩ : Cursor).head) :=
          skip_head hsize
        rw [hskip] at hperform
        refine .of_given hc hperform hsize (absurd · Bool.false_ne_true) (by decide)
          ⟨Int.natCast_nonneg _, Int.ofNat_le.mpr (Nat.le_add_right c.pos 4),
            Int.ofNat_le.mpr hsize, ?_⟩
        have hbytes : (c.buffer.slice c.pos 4).drop 4 = [] := by
          rw [Buffer.slice_eq, List.drop_take, List.take_zero]
        simp only [Cursor.Operation.span, Cursor.Operation.value]
        rw [between_head, Nat.add_sub_cancel_left, hbytes]
        rfl
      · have hshort : (c.remaining : Int) < 4 := short_of_lt hc (Nat.lt_of_not_le hsize)
        rw [skip_head_of_short hc (.inr hshort)] at hperform
        exact .of_refused hc hperform rfl

/-! ## Runs -/

theorem orderly_step {h : Head} (hinside : h.IsInside) (op : Cursor.Operation) :
    (h.step op).Orderly := by
  obtain ⟨c, hc, rfl⟩ := hinside.exists_head
  cases op with
  | seek target => exact orderly_seek hc target
  | skip count => exact orderly_skip hc count
  | readByte | readHalf | readWord | readSigned | readBytes _ | readPadded _ =>
      exact orderly_take hc rfl (fun _ _ => rfl) (fun _ _ _ => rfl) rfl nofun
  | readText => exact orderly_readText hc
  | readTextOrEmpty => exact orderly_readTextOrEmpty hc
  | peekWord _ | peekSigned _ =>
      exact orderly_peek hc rfl (fun _ _ => rfl) (fun _ _ _ => rfl) nofun
  | canRead _ | atEnd | describe =>
      exact orderly_idle hc rfl hc (fun _ => rfl) (fun _ _ => rfl) (fun _ => rfl) nofun

theorem orderly_trace {h : Head} (hinside : h.IsInside) (ops : List Cursor.Operation) :
    ∀ t ∈ h.trace ops, t.Orderly := by
  induction ops generalizing h with
  | nil => exact List.forall_mem_nil _
  | cons op ops ih =>
      have hstep : (h.step op).Orderly := orderly_step hinside op
      exact List.forall_mem_cons.mpr ⟨hstep, ih hstep.inside⟩

/-- A cursor is refused outside its buffer, and one that is made stays inside it whatever
operations are done: each of them leaves it inside, with nothing moved where it fails, where it
finds no text and where it only looks, and gives only what is made from bytes of the buffer. -/
theorem trace_orderly (b : Buffer) (start : Int) (ops : List Cursor.Operation) :
    match Cursor.at? b start with
    | .error e => e.category = .outOfBounds
    | .ok c => c.head.buffer = b ∧ c.head.IsInside ∧ ∀ t ∈ c.head.trace ops, t.Orderly := by
  rw [Cursor.at?, Cursor.seek]
  by_cases hbounds : start < 0 ∨ (b.size : Int) < start
  · rw [if_pos hbounds]
    rfl
  · rw [if_neg hbounds]
    have hinside : (⟨b, start.toNat⟩ : Cursor).head.IsInside := isInside_head (by
      show start.toNat ≤ b.size
      omega)
    exact ⟨rfl, hinside, orderly_trace hinside ops⟩

/-- A text that runs over the end, a negative count, the length read alone, and a look back. -/
example :
    ((⟨#[3, 0, 0, 0, 65], 0⟩ : Cursor).head.trace
        [.readText, .skip (-1), .readTextOrEmpty, .peekWord (-4)]).map
      (fun t => (t.outcome, t.after.pos)) =
    [(.ok (.text none), 0), (.error (.refused (.shortRead (-1) 5 0)), 0),
      (.ok (.text (some "")), 4), (.ok (.number 3), 4)] :=
  rfl

end Head

end PointAndClick
