/-
What flat RAM shows.

The buffer behind the RAM belongs to the host as well, which may cut it or put
another one in its place between any two calls. So the length is not fixed, and
each way into the memory minds it for itself. All of them agree with one account
of what has happened (`Account`), which knows nothing of how the memory works:
the buffer that the host put in place, as far as it is left, and the bytes that
were stored since. An address shows the last byte stored there, or what the
buffer has, and beyond the end it shows an open bus.

A call comes down to the bytes that it stores, one after another, as the
processor would write them (`perform_eq`). One write keeps memory and account
together (`Tracks.writeByte`), so any number of them do, and with what the host
does to the buffer this is the whole run (`Tracks.run`).

One call does not mind the length. A load wraps at the end of the address
space, but it stores each byte without asking whether the buffer has a place for
it. So it goes well only if all places exist (`Call.Fits`), as they do in RAM of
full size (`load_of_full`), and else it faults at the first one that does not.
-/
import ConsoleBoard.Memory.Flat

namespace ConsoleBoard.FlatMemory

open Z80 (MemoryBus openBusByte)

-- =================================================================== calls

/-- A call on the memory, of the processor or of the host. -/
inductive Call
  | load (address : UInt16) (image : List UInt8)
  | peek (address : UInt16)
  | readByte (address : UInt16)
  | writeByte (address : UInt16) (v : UInt8)
  | readWord (address : UInt16)
  | writeWord (address w : UInt16)

/-- What a call gives back. -/
inductive Answer
  | done
  | byte (v : UInt8)
  | word (w : UInt16)
deriving DecidableEq

/-- The RAM as all the memory there is. -/
def alone : MemoryBus FlatMemory := bus id fun change m => change m

/-- The answer of a call, and the memory behind it. -/
def Call.perform (m : FlatMemory) : Call → Except Fault Answer × FlatMemory
  | .load address image =>
    let (result, m) := m.load address image
    (result.map fun _ => .done, m)
  | .peek address => ((m.peek address).map .byte, m)
  | .readByte address =>
    let (v, m) := alone.readByte address m
    (.ok (.byte v), m)
  | .writeByte address v => (.ok .done, (alone.writeByte address v m).2)
  | .readWord address =>
    let (w, m) := alone.readWord address m
    (.ok (.word w), m)
  | .writeWord address w => (.ok .done, (alone.writeWord address w m).2)

/-- What happens to a memory that nobody holds. -/
inductive Event
  | call (call : Call)
  /-- The host cuts the buffer. -/
  | truncate (n : Nat)
  /-- The host makes the buffer another one, of any length. -/
  | replace (bytes : Array UInt8)

def afterEvent (m : FlatMemory) : Event → FlatMemory
  | .call call => (call.perform m).2
  | .truncate n => m.truncate n
  | .replace bytes => { m with bytes }

/-- The memory when all of it has happened. -/
def after (m : FlatMemory) (events : List Event) : FlatMemory :=
  events.foldl afterEvent m

-- ================================================================== stores

/-- The bytes of an image with their places, modulo the address space. -/
def placed (address : UInt16) (image : List UInt8) : List (UInt16 × UInt8) :=
  image.mapIdx fun i v => (UInt16.ofNat ((address.toNat + i) % addressSpace), v)

/-- Write one byte after another. -/
def writeAll (m : FlatMemory) (stores : List (UInt16 × UInt8)) : FlatMemory :=
  stores.foldl (fun m s => m.writeByte s.1 s.2) m

namespace Call

/-- The buffer, of this size, has all places that a load needs. -/
def Fits (size : Nat) : Call → Prop
  | .load address image =>
      ∀ i < image.length, (address.toNat + i) % addressSpace < size
  | .peek _ | .readByte _ | .writeByte _ _ | .readWord _ | .writeWord _ _ =>
      True

instance (size : Nat) (call : Call) : Decidable (call.Fits size) :=
  match call with
  | .load address image =>
    inferInstanceAs (Decidable
      (∀ i < image.length, (address.toNat + i) % addressSpace < size))
  | .peek _ | .readByte _ | .writeByte _ _ | .readWord _ | .writeWord _ _ =>
      .isTrue trivial

/-- The bytes that a call is to store, in order. -/
def stores : Call → List (UInt16 × UInt8)
  | .load address image => placed address image
  | .writeByte address v => [(address, v)]
  | .writeWord address w =>
      [(address, (Pair.ofWord w).low), (address + 1, (Pair.ofWord w).high)]
  | .peek _ | .readByte _ | .readWord _ => []

/-- The first place that a load needs and a buffer of this size lacks. -/
def missing? (size : Nat) : Call → Option UInt16
  | .load address image =>
      ((placed address image).find? (size ≤ ·.1.toNat)).map (·.1)
  | _ => none

/-- The bytes that a call does store: a load stops at the first place that is
missing. -/
def stored (size : Nat) : Call → List (UInt16 × UInt8)
  | .load address image => (placed address image).takeWhile (·.1.toNat < size)
  | call => call.stores

/-- What a call answers where the memory shows these bytes. -/
def answer (shown : UInt16 → UInt8) : Call → Answer
  | .load _ _ | .writeByte _ _ | .writeWord _ _ => .done
  | .peek address | .readByte address => .byte (shown address)
  | .readWord address =>
      .word (Pair.mk (shown (address + 1)) (shown address)).toWord

end Call

/-- The first byte is at the address itself, and the others are at the addresses
that follow it. -/
theorem placed_cons (a : UInt16) (v : UInt8) (rest : List UInt8) :
    placed a (v :: rest) = (a, v) :: placed (a + 1) rest := by
  have hnat (n : Nat) : UInt16.ofNat (n % addressSpace) = UInt16.ofNat n := by
    apply UInt16.toNat_inj.1
    rw [UInt16.toNat_ofNat', UInt16.toNat_ofNat', addressSpace]
    omega
  have hnext (i : Nat) : UInt16.ofNat (a.toNat + (i + 1))
      = UInt16.ofNat ((a + 1).toNat + i) := by
    apply UInt16.toNat_inj.1
    simp only [UInt16.toNat_ofNat', UInt16.toNat_add, UInt16.reduceToNat]
    omega
  simp only [placed, List.mapIdx_cons, hnat, hnext, Nat.add_zero,
    UInt16.ofNat_toNat]

/-- A byte of the image is stored at its place, around the end of memory. -/
private theorem mem_placed_iff {a : UInt16} {image : List UInt8}
    {s : UInt16 × UInt8} :
    s ∈ placed a image ↔ ∃ i, ∃ h : i < image.length,
      s = (UInt16.ofNat ((a.toNat + i) % addressSpace), image[i]) := by
  simp only [placed, List.mem_mapIdx, eq_comm]

/-- A call fits where it misses no place. -/
theorem missing?_eq_none_iff {size : Nat} {call : Call} :
    call.missing? size = none ↔ call.Fits size := by
  cases call with
  | load address image =>
      have hplace (i : Nat) :
          (UInt16.ofNat ((address.toNat + i) % addressSpace)).toNat
          = (address.toNat + i) % addressSpace :=
        UInt16.toNat_ofNat_of_lt' (Nat.mod_lt _ (by decide))
      simp only [Call.missing?, Call.Fits, Option.map_eq_none_iff,
        List.find?_eq_none, decide_eq_true_eq, Nat.not_le]
      constructor
      · intro h i hi
        exact hplace i ▸ h _ (mem_placed_iff.2 ⟨i, hi, rfl⟩)
      · intro h s hs
        obtain ⟨i, hi, rfl⟩ := mem_placed_iff.1 hs
        exact (hplace i).symm ▸ h i hi
  | peek | readByte | writeByte | readWord | writeWord =>
      exact iff_of_true rfl trivial

/-- A buffer of all 64 KiB fits every call. -/
private theorem fits_of_full {size : Nat} (h : addressSpace ≤ size)
    (call : Call) : call.Fits size := by
  cases call with
  | load => exact fun i _ => Nat.lt_of_lt_of_le (Nat.mod_lt _ (by decide)) h
  | peek | readByte | writeByte | readWord | writeWord => trivial

/-- The first byte of an image that has no place. -/
private theorem missing?_load_cons (size : Nat) (a : UInt16) (v : UInt8)
    (rest : List UInt8) :
    (Call.load a (v :: rest)).missing? size
      = if a.toNat < size then (Call.load (a + 1) rest).missing? size
        else some a := by
  unfold Call.missing?
  dsimp only
  rw [placed_cons]
  split
  next h => rw [List.find?_cons_of_neg (by simpa using h)]
  next h =>
    rw [List.find?_cons_of_pos (by simpa using h)]
    rfl

/-- The bytes of an image that have a place, up to the first that has none. -/
private theorem stored_load_cons (size : Nat) (a : UInt16) (v : UInt8)
    (rest : List UInt8) :
    (Call.load a (v :: rest)).stored size
      = if a.toNat < size then
          (a, v) :: (Call.load (a + 1) rest).stored size
        else [] := by
  unfold Call.stored
  dsimp only
  rw [placed_cons]
  split
  next h => exact List.takeWhile_cons_of_pos (decide_eq_true h)
  next h => exact List.takeWhile_cons_of_neg (by simpa using h)

/-- A call that fits stores all that it is to store. -/
theorem stored_of_fits {size : Nat} {call : Call} (h : call.Fits size) :
    call.stored size = call.stores := by
  rw [← missing?_eq_none_iff] at h
  cases call with
  | load address image =>
      induction image generalizing address with
      | nil => rfl
      | cons v rest ih =>
          rw [missing?_load_cons] at h
          split at h
          next hplace =>
            rw [stored_load_cons, if_pos hplace, ih (address + 1) h]
            exact (placed_cons address v rest).symm
          next => cases h
  | peek | readByte | writeByte | readWord | writeWord => rfl

-- ================================================================ one call

/-- How a call comes out: a missing place is a fault. -/
def Call.outcome (shown : UInt16 → UInt8) (size : Nat) (call : Call) :
    Except Fault Answer :=
  match call.missing? size with
  | none => .ok (call.answer shown)
  | some place => .error (.outside place.toNat size)

/-- An image is stored byte by byte, and stops at a place that is not there. -/
private theorem load_cons {m : FlatMemory} (hfree : m.hold = .free) (a : UInt16)
    (v : UInt8) (rest : List UInt8) :
    m.load a (v :: rest)
      = if a.toNat < m.bytes.size then (m.writeByte a v).load (a + 1) rest
        else (.error (.outside a.toNat m.bytes.size), m) := by
  obtain ⟨bytes, hold⟩ := m
  cases hfree
  show ((copyInto bytes a (v :: rest)).1,
    FlatMemory.mk (copyInto bytes a (v :: rest)).2 .free) = _
  unfold copyInto
  by_cases hplace : a.toNat < bytes.size
  · have hset : bytes.set a.toNat v hplace = bytes.setIfInBounds a.toNat v :=
      (dif_pos hplace).symm
    rw [dif_pos hplace, if_pos hplace, hset]
    rfl
  · rw [dif_neg hplace, if_neg hplace]

/-- A load writes byte by byte, up to the first place that is missing. A write
leaves the size, so the same places are missing for the rest. -/
theorem load_eq {m : FlatMemory} (hfree : m.hold = .free) (a : UInt16)
    (image : List UInt8) :
    m.load a image
      = (match (Call.load a image).missing? m.bytes.size with
          | none => .ok ()
          | some place => .error (.outside place.toNat m.bytes.size),
        m.writeAll ((Call.load a image).stored m.bytes.size)) := by
  induction image generalizing m a with
  | nil =>
      obtain ⟨bytes, hold⟩ := m
      cases hfree
      rfl
  | cons v rest ih =>
      rw [load_cons hfree, missing?_load_cons, stored_load_cons]
      split
      next =>
        rw [ih ((hold_writeByte m a v).trans hfree), size_writeByte]
        rfl
      next => rfl

/-- RAM of full size takes any image, so what the runner loads is all there. -/
theorem load_of_full {m : FlatMemory} (hfree : m.hold = .free)
    (hsize : addressSpace ≤ m.bytes.size) (a : UInt16) (image : List UInt8) :
    m.load a image = (.ok (), m.writeAll (placed a image)) := by
  have hfits := fits_of_full hsize (.load a image)
  rw [load_eq hfree, missing?_eq_none_iff.2 hfits, stored_of_fits hfits]
  rfl

/-- A call on a memory that nobody holds answers with the bytes that the memory
shows, and writes what it stores. -/
theorem perform_eq {m : FlatMemory} (hfree : m.hold = .free) (call : Call) :
    call.perform m
      = (call.outcome m.readByte m.bytes.size,
        m.writeAll (call.stored m.bytes.size)) := by
  cases call with
  | load address image =>
      show ((m.load address image).1.map fun _ => Answer.done,
        (m.load address image).2) = _
      rw [load_eq hfree]
      unfold Call.outcome
      cases (Call.load address image).missing? m.bytes.size <;> rfl
  | peek =>
      obtain ⟨bytes, hold⟩ := m
      cases hfree
      rfl
  | readByte | writeByte | readWord | writeWord => rfl

-- ============================================================= the account

private theorem getElem?_take (bytes : Array UInt8) (n i : Nat) :
    (bytes.take n)[i]? = if i < n then bytes[i]? else none := by
  rw [Array.getElem?_extract, Nat.zero_add, Nat.sub_zero]
  by_cases hi : i < bytes.size
  · simp only [Nat.lt_min, and_iff_left hi]
  · rw [getElem?_neg bytes i hi, ite_self, ite_self]

/-- What is to be known of a memory to say what it shows. -/
structure Account where
  /-- The buffer that the host put in place, as far as it is left. -/
  buffer : Array UInt8
  /-- The bytes stored since then, the last one first. -/
  stores : List (UInt16 × UInt8) := []

namespace Account

/-- An address shows the last byte stored there, or else what the buffer has. -/
def shown (seen : Account) (a : UInt16) : UInt8 :=
  match seen.buffer[a.toNat]? with
  | some v => (seen.stores.lookup a).getD v
  | none => openBusByte

def afterEvent (seen : Account) : Event → Account
  | .call call => { seen with
      stores := (call.stored seen.buffer.size).reverse ++ seen.stores }
  | .truncate n => { seen with buffer := seen.buffer.take n }
  | .replace bytes => { buffer := bytes }

def after (seen : Account) (events : List Event) : Account :=
  events.foldl afterEvent seen

end Account

/-- Nobody holds the memory, and it shows what the account says. -/
structure Tracks (m : FlatMemory) (seen : Account) : Prop where
  free : m.hold = .free
  size : m.bytes.size = seen.buffer.size
  shown : m.readByte = seen.shown

namespace Tracks

variable {m : FlatMemory} {seen : Account}

/-- What a buffer holds from the start is its account. -/
theorem ofBuffer (bytes : Array UInt8) :
    Tracks { bytes } { buffer := bytes } where
  free := rfl
  size := rfl
  shown := by
    funext a
    show bytes[a.toNat]?.getD openBusByte = Account.shown { buffer := bytes } a
    unfold Account.shown
    cases bytes[a.toNat]? <;> rfl

/-- A stored byte is one more in the account. -/
theorem writeByte (h : Tracks m seen) (a : UInt16) (v : UInt8) :
    Tracks (m.writeByte a v) { seen with stores := (a, v) :: seen.stores } where
  free := (hold_writeByte m a v).trans h.free
  size := (size_writeByte m a v).trans h.size
  shown := by
    funext a'
    rw [readByte_writeByte h.free, h.shown, h.size]
    unfold Account.shown
    dsimp only
    by_cases hsame : a' = a
    · subst hsame
      rw [List.lookup_cons_self]
      -- beyond the end neither of them takes notice
      by_cases hplace : a'.toNat < seen.buffer.size
      · rw [if_pos ⟨rfl, hplace⟩, getElem?_pos seen.buffer _ hplace]
        rfl
      · rw [if_neg fun h => hplace h.2, getElem?_neg seen.buffer _ hplace]
    · rw [if_neg fun h => hsame h.1, List.lookup_cons, beq_false_of_ne hsame]

/-- Memory and account go together through any number of writes. The account has
the last one first. -/
theorem writeAll (h : Tracks m seen) (stores : List (UInt16 × UInt8)) :
    Tracks (m.writeAll stores) { seen with
      stores := stores.reverse ++ seen.stores } := by
  induction stores generalizing m seen with
  | nil => exact h
  | cons s rest ih =>
      have hrest := ih (h.writeByte s.1 s.2)
      rw [List.reverse_cons, List.append_assoc]
      exact hrest

/-- A cut buffer is cut in the account. -/
theorem truncate (h : Tracks m seen) (n : Nat) :
    Tracks (m.truncate n) { seen with buffer := seen.buffer.take n } where
  free := h.free
  size := by
    show (m.bytes.take n).size = (seen.buffer.take n).size
    rw [Array.size_extract, Array.size_extract, h.size]
  shown := by
    funext a
    have hsame : m.readByte a = seen.shown a := congrFun h.shown a
    obtain ⟨bytes, hold⟩ := m
    cases h.free
    show (bytes.take n)[a.toNat]?.getD openBusByte = _
    unfold Account.shown at hsame ⊢
    dsimp only
    rw [getElem?_take, getElem?_take]
    split
    next => exact hsame
    next => rfl

/-- What happens to the memory happens to its account. -/
theorem event (h : Tracks m seen) (event : Event) :
    Tracks (m.afterEvent event) (seen.afterEvent event) := by
  cases event with
  | call call =>
      show Tracks (call.perform m).2 _
      rw [perform_eq h.free, h.size]
      exact h.writeAll _
  | truncate n => exact h.truncate n
  | replace bytes =>
      obtain ⟨old, hold⟩ := m
      cases h.free
      exact ofBuffer bytes

/-- They go together through whatever is called and whatever the host does. -/
theorem run (h : Tracks m seen) (events : List Event) :
    Tracks (m.after events) (seen.after events) := by
  induction events generalizing m seen with
  | nil => exact h
  | cons event rest ih => exact ih (h.event event)

end Tracks

/-- Flat RAM is a memory of 64 KiB over a buffer of any length. Whatever has
been called and whatever the host has made of the buffer, a call for which there
is room does not fault: it answers with the last bytes stored, FFh where there
is no place, and what it stores goes in byte by byte, as the processor writes.
Only a load may lack room, and then it faults at the first place that is
missing, with the bytes before it stored. -/
theorem calls_follow_stores (bytes : Array UInt8) (before : List Event)
    (call : Call) :
    let m := after { bytes } before
    let seen := Account.after { buffer := bytes } before
    let size := seen.buffer.size
    m.bytes.size = size
      ∧ (call.Fits size →
          call.perform m
            = (.ok (call.answer seen.shown), m.writeAll call.stores))
      ∧ (¬call.Fits size → ∃ place, call.missing? size = some place
          ∧ call.perform m
            = (.error (.outside place.toNat size),
              m.writeAll (call.stored size))) := by
  intro m seen size
  have htracks : Tracks m seen := (Tracks.ofBuffer bytes).run before
  have hperform : call.perform m
      = (call.outcome seen.shown size, m.writeAll (call.stored size)) := by
    rw [perform_eq htracks.free, htracks.size, htracks.shown]
  unfold Call.outcome at hperform
  refine ⟨htracks.size, fun hfits => ?_, fun hmissing => ?_⟩
  · rw [hperform, missing?_eq_none_iff.2 hfits, stored_of_fits hfits]
  · obtain ⟨place, hplace⟩ :=
      Option.ne_none_iff_exists'.1 fun hnone =>
        hmissing (missing?_eq_none_iff.1 hnone)
    exact ⟨place, hplace, by rw [hperform, hplace]⟩

/-- A buffer cut to three bytes, and a load that came to its end: another one
inside the buffer goes well, and a word at the end is half an open bus. -/
theorem calls_follow_stores_cut :
    let before : List Event :=
      [.call (.writeWord 0 0x2211), .truncate 3, .call (.load 2 [0x33, 0x44])]
    let m := after { bytes := #[0, 0, 0, 0] } before
    (Call.load 0 [0x55, 0x66]).Fits 3
      ∧ (Call.load 0 [0x55, 0x66]).perform m
        = (.ok .done, (m.writeByte 0x0000 0x55).writeByte 0x0001 0x66)
      ∧ (Call.peek 1).perform m = (.ok (.byte 0x22), m)
      ∧ (Call.readWord 2).perform m = (.ok (.word 0xFF33), m) := by
  intro before m
  have hroom : (Call.load 0 [0x55, 0x66]).Fits 3 := by decide
  have hstores : (Call.load 0 [0x55, 0x66]).stores
      = [(0x0000, 0x55), (0x0001, 0x66)] := by decide
  obtain ⟨-, hload, -⟩ :=
    calls_follow_stores #[0, 0, 0, 0] before (.load 0 [0x55, 0x66])
  obtain ⟨-, hpeek, -⟩ := calls_follow_stores #[0, 0, 0, 0] before (.peek 1)
  obtain ⟨-, hword, -⟩ := calls_follow_stores #[0, 0, 0, 0] before (.readWord 2)
  have hanswer : (Call.readWord 2).answer
      (Account.after { buffer := #[0, 0, 0, 0] } before).shown
        = .word 0xFF33 := by
    decide
  rw [hstores] at hload
  rw [hanswer] at hword
  exact ⟨hroom, hload hroom, hpeek trivial, hword trivial⟩

/-- A load does not drop the byte that has no place: it faults there. -/
theorem load_past_end :
    let m : FlatMemory := { bytes := #[0, 0, 0, 0] }
    let call : Call := .load 3 [0x11, 0x22]
    call.perform m = (.error (.outside 4 4), m.writeByte 3 0x11)
      ∧ call.perform m ≠ (.ok .done, m.writeAll call.stores) := by
  intro m call
  have hfault : call.perform m
      = (.error (.outside 4 4), m.writeByte 3 0x11) := rfl
  refine ⟨hfault, fun hdone => ?_⟩
  rw [hfault] at hdone
  cases congrArg Prod.fst hdone

end ConsoleBoard.FlatMemory
