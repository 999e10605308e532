/-
Looking a window up by its bank.

A fetch goes through the list of one bank and asks the windows that it names.
In a sound map that is a search of all windows (`Sound.find?_eq`), and the first
answer is the only one, since no other window serves the address.

The two loops are written a second time here, with every index looked up and
every sum kept below the size of a machine word (`rebuild?`, `fetch?`). In a
sound map none of that fails.

# No index and no sum fails

A bank may name a window by a place that is no longer there, a place in the
buffer may be past the end of a machine word, and a bank number past the
sixteen. The checked loops would stop at any of these (`enter?_eq`, `scan?_eq`,
`place?_eq`): that they give the answer of the plain ones is the statement that
none of it occurs. A byte is then looked up in the buffer itself, where only
its length and its hold can fail (`lookup?_eq_some_iff`).
-/
import ConsoleBoard.Proofs.Z80.Banks

namespace ConsoleBoard.Z80

variable {σ β : Type}

namespace FetchMap

-- ============================================================= the look-up

/-- The byte that the windows have for an address. `peek` reads a buffer. -/
def fetch (map : FetchMap β) (peek : β → Nat → σ → Option UInt8)
    (address : UInt16) (host : σ) :
    Option UInt8 :=
  (map.find? address).bind fun w => peek w.buffer (w.position address) host

/-- Where the windows have no byte, memory is asked. -/
theorem serve_fetch (map : FetchMap β) (peek : β → Nat → σ → Option UInt8)
    (bus : Bus σ) (address : UInt16) (host : σ) :
    (map.serve peek bus).fetch address host
      = match map.fetch peek address host with
        | some v => (v, host)
        | none => bus.memory.readByte address host := rfl

namespace Sound

variable {map : FetchMap β} (h : map.Sound)

include h

private theorem bank_eq (bank : Fin 16) :
    map.banks[bank] = meeting bank 0 map.windows := by
  rw [h.banks]
  exact Vector.getElem_ofFn bank.isLt

/-- The windows of a bank stand in the order of the list. -/
private theorem sorted_bank (bank : Fin 16) :
    map.banks[bank].Pairwise (· < ·) := by
  rw [h.bank_eq]
  exact sorted_meeting bank 0 map.windows

/-- The search of one bank is the search of all windows. -/
theorem find?_eq (address : UInt16) :
    map.find? address = map.windows.find? fun w => w.contains address := by
  unfold find?
  rw [h.bank_eq]
  exact findSome?_meeting [] map.windows

/-- Only one window serves an address. -/
theorem unique {w w' : FetchWindow β} (hw : w ∈ map.windows)
    (hw' : w' ∈ map.windows) {address : UInt16}
    (hin : w.contains address = true) (hin' : w'.contains address = true) :
    w = w' := by
  have hsymm : Std.Symm fun w w' : FetchWindow β => ¬w.Clash w' :=
    ⟨fun _ _ hfree ⟨a, ha, ha'⟩ => hfree ⟨a, ha', ha⟩⟩
  by_contra hne
  exact h.disjoint.forall hw hw' hne ⟨address, hin, hin'⟩

/-- A window is found just if it holds the address. -/
private theorem find?_eq_some_iff {address : UInt16} {w : FetchWindow β} :
    map.find? address = some w ↔ w ∈ map.windows
      ∧ w.contains address = true := by
  rw [h.find?_eq]
  constructor
  · exact fun hfind => ⟨List.mem_of_find?_eq_some hfind,
      List.find?_some (p := (FetchWindow.contains · address)) hfind⟩
  · rintro ⟨hw, hin⟩
    obtain ⟨found, hfound⟩ : ∃ found,
      map.windows.find? (fun w => w.contains address)
        = some found :=
          Option.isSome_iff_exists.1 (List.find?_isSome.2 ⟨w, hw, hin⟩)
    have hsame := h.unique (List.mem_of_find?_eq_some hfound) hw
      (List.find?_some (p := (FetchWindow.contains · address)) hfound) hin
    rw [hfound, hsame]

/-- A window stands in a bank just if it meets it. -/
private theorem mem_bank_iff (bank : Fin 16) (i : Nat) :
    i ∈ map.banks[bank] ↔ ∃ w, map.windows[i]? = some w ∧ w.Meets bank := by
  rw [h.bank_eq, mem_meeting]
  constructor
  · rintro ⟨k, w, hi, hw, hreach⟩
    have hk : i = k := by omega
    have hordered : w.low ≤ w.high := h.ordered w (List.mem_of_getElem? hw)
    exact ⟨w, hk ▸ hw, (FetchWindow.meets_iff hordered bank).2 hreach⟩
  · rintro ⟨w, hw, hmeets⟩
    exact ⟨i, w, by omega, hw,
      (FetchWindow.meets_iff (h.ordered w (List.mem_of_getElem? hw)) bank).1
        hmeets⟩

end Sound

-- =================================================== every index looked up

/-- A window named by the banks from that of its low end to that of its high
end. -/
def enter? (banks : Vector (List Nat) 16) (w : FetchWindow β) (i : Nat) :
    Option (Vector (List Nat) 16) :=
  let first := w.low.toNat / 4096
  let last := w.high.toNat / 4096
  if first ≤ last ∧ last < 16 then
    some (banks.mapIdx fun bank named =>
      if first ≤ bank ∧ bank ≤ last then named ++ [i] else named)
  else none

/-- The banks with the windows entered one after the other, from place `i`
on. -/
def enterFrom? (banks : Vector (List Nat) 16) (i : Nat) :
    List (FetchWindow β) → Option (Vector (List Nat) 16)
  | [] => some banks
  | w :: rest => do enterFrom? (← enter? banks w i) (i + 1) rest

def rebuild? (windows : List (FetchWindow β)) : Option (Vector (List Nat) 16) :=
  enterFrom? (.replicate 16 []) 0 windows

/-- The place of an address in the buffer of a window, in machine words. -/
def place? (w : FetchWindow β) (address : UInt16) : Option Nat :=
  if w.low ≤ address ∧ w.offset + (address - w.low).toNat < USize.size then
    some (w.offset + (address - w.low).toNat)
  else none

/-- The windows that a bank names, asked one after the other. -/
def scan? (map : FetchMap β) (peek : β → Nat → σ → Option UInt8)
    (address : UInt16) (host : σ) :
    List Nat → Option (Option UInt8)
  | [] => some none
  | i :: rest => do
      let w ← map.windows[i]?
      if w.contains address then return peek w.buffer (← place? w address) host
      else scan? map peek address host rest

def fetch? (map : FetchMap β) (peek : β → Nat → σ → Option UInt8)
    (address : UInt16) (host : σ) :
    Option (Option UInt8) := do
  scan? map peek address host (← map.banks[address.toNat / 4096]?)

/-- Entering one more window is entering it into the banks it meets. -/
private theorem enter?_eq (front : List (FetchWindow β)) {w : FetchWindow β}
    (h : w.low ≤ w.high) :
    enter? (.ofFn fun bank => meeting bank 0 front) w front.length
      = some (.ofFn fun bank => meeting bank 0 (front ++ [w])) := by
  have hrange : w.low.toNat / 4096 ≤ w.high.toNat / 4096 :=
    Nat.div_le_div_right (UInt16.le_iff_toNat_le.1 h)
  have hlast : w.high.toNat / 4096 < 16 := (bankOf w.high).isLt
  unfold enter?
  dsimp only
  rw [if_pos ⟨hrange, hlast⟩]
  refine congrArg some (Vector.ext fun bank hbank => ?_)
  rw [Vector.getElem_mapIdx, Vector.getElem_ofFn, Vector.getElem_ofFn,
    meeting_append, Nat.zero_add, meeting]
  by_cases hreach : w.low.toNat / 4096 ≤ bank ∧ bank ≤ w.high.toNat / 4096
  · have hmeets : bankOf w.low ≤ ⟨bank, hbank⟩
        ∧ ⟨bank, hbank⟩ ≤ bankOf w.high := hreach
    rw [if_pos hreach, if_pos hmeets]
    rfl
  · have hmisses : ¬(bankOf w.low ≤ ⟨bank, hbank⟩
        ∧ ⟨bank, hbank⟩ ≤ bankOf w.high) := hreach
    rw [if_neg hreach, if_neg hmisses]
    exact (List.append_nil _).symm

/-- Entering the rest of the windows one by one enters them all. -/
private theorem enterFrom?_eq (front : List (FetchWindow β))
    {back : List (FetchWindow β)} (h : ∀ w ∈ back, w.low ≤ w.high) :
    enterFrom? (.ofFn fun bank => meeting bank 0 front) front.length back
      = some (.ofFn fun bank => meeting bank 0 (front ++ back)) := by
  induction back generalizing front with
  | nil => rw [List.append_nil, enterFrom?]
  | cons w rest ih =>
      obtain ⟨hw, hrest⟩ := List.forall_mem_cons.1 h
      have hnext := ih (front ++ [w]) hrest
      rw [List.append_assoc, List.length_append] at hnext
      rw [enterFrom?, enter?_eq front hw]
      exact hnext

namespace Sound

variable {map : FetchMap β} (h : map.Sound)

include h

/-- Inside a window every address has its place in the buffer. -/
private theorem place?_eq {w : FetchWindow β} (hw : w ∈ map.windows)
    {address : UInt16} (hin : w.contains address = true) :
    place? w address = some (w.position address) := by
  obtain ⟨hlow, hhigh⟩ := FetchWindow.contains_iff.1 hin
  have hle : w.low ≤ address := UInt16.le_iff_toNat_le.2 hlow
  have hahead : (address - w.low).toNat = address.toNat - w.low.toNat :=
    UInt16.toNat_sub_of_le _ _ hle
  have hplace := h.places w hw
  unfold FetchWindow.span at hplace
  unfold place? FetchWindow.position
  rw [hahead, if_pos ⟨hle, by omega⟩]

/-- A scan of places that are there finds what the search finds. -/
theorem scan?_eq (peek : β → Nat → σ → Option UInt8) (address : UInt16)
    (host : σ) {places : List Nat}
    (hplaces : ∀ i ∈ places, i < map.windows.length) :
    scan? map peek address host places
      = some ((places.findSome? fun i =>
          (map.windows[i]?).filter fun w => w.contains address).bind fun w =>
            peek w.buffer (w.position address) host) := by
  induction places with
  | nil => rfl
  | cons i rest ih =>
      obtain ⟨hi, hrest⟩ := List.forall_mem_cons.1 hplaces
      have hplace : map.windows[i]? = some map.windows[i] :=
        List.getElem?_eq_getElem hi
      rw [scan?, hplace, List.findSome?_cons, hplace, Option.filter_some]
      dsimp only [Option.bind_eq_bind, Option.bind_some]
      split
      next hin =>
        rw [h.place?_eq (List.getElem_mem hi) hin]
        rfl
      next => exact ih hrest

/-- No look-up of a fetch fails, and no sum leaves the machine word. -/
theorem fetch?_eq (peek : β → Nat → σ → Option UInt8) (address : UInt16)
    (host : σ) :
    map.fetch? peek address host = some (map.fetch peek address host) := by
  have hbank : map.banks[address.toNat / 4096]?
      = some map.banks[bankOf address] :=
    Vector.getElem?_eq_getElem (bankOf address).isLt
  unfold fetch?
  rw [hbank]
  refine h.scan?_eq peek address host fun i hi => ?_
  obtain ⟨w, hw, -⟩ := (h.mem_bank_iff _ i).1 hi
  exact (List.getElem?_eq_some_iff.1 hw).1

/-- Each window reaches over banks that there are, and the banks come out as
they are kept. -/
theorem rebuild?_eq : rebuild? map.windows = some map.banks := by
  have hempty : (Vector.replicate 16 [] : Vector (List Nat) 16)
      = Vector.ofFn fun bank => meeting bank 0 ([] : List (FetchWindow β)) := by
    apply Vector.ext
    intro bank hbank
    rw [Vector.getElem_replicate, Vector.getElem_ofFn]
    rfl
  have hbanks : map.banks = Vector.ofFn fun bank =>
      meeting bank 0 map.windows :=
    congrArg FetchMap.banks h.banks
  unfold rebuild?
  rw [hempty, hbanks]
  exact enterFrom?_eq [] h.ordered

end Sound

end FetchMap

-- ============================================================= the theorem

/-- A byte is looked up if the buffer is free to read and long enough. -/
private theorem lookup?_eq_some_iff {ram : FlatMemory} {i : Nat} {v : UInt8} :
    ram.lookup? i = some v ↔ ram.hold ≠ .exclusive
      ∧ ram.bytes[i]? = some v := by
  unfold FlatMemory.lookup?
  cases ram.hold <;> simp

/-- A fetch finds the window that serves its address. After any calls, accepted
and refused, no two windows serve one address; each bank names the windows that
serve an address of it, in order; the windows are those that were accepted and
that no later call was in the way of; and looking in one bank is looking at all
windows. So a fetch gives the byte that the only window for its address has in
its buffer, if the host has not taken the buffer away or cut it, and nothing
else. No index or sum on the way fails, neither in a fetch nor in filling in
the banks. -/
theorem windows_looked_up (calls : List (FetchMap.Call β)) :
    let map := FetchMap.empty.afterAll calls
    map.windows.Pairwise (fun w w' => ¬w.Clash w')
      ∧ (∀ bank : Fin 16, map.banks[bank].Pairwise (· < ·)
          ∧ ∀ i, i ∈ map.banks[bank] ↔ ∃ w, map.windows[i]? = some w
          ∧ w.Meets bank)
      ∧ (∀ w, w ∈ map.windows ↔
          ∃ earlier call later, calls = earlier ++ call :: later
            ∧ call.window? = some w
            ∧ ∀ call ∈ later, ¬call.Removes w)
      ∧ (∀ call : FetchMap.Call β, (∃ map', call.perform map = .ok map')
          ↔ call = .clear ∨ ∃ w, call.window? = some w)
      ∧ (∀ address, map.find? address
        = map.windows.find? fun w => w.contains address)
      ∧ (∀ (view : β → σ → FlatMemory) (bus : Bus σ) (address : UInt16)
        (host : σ) (v : UInt8),
          let peek := fun buffer i host => (view buffer host).lookup? i
          (map.fetch peek address host = some v ↔
            ∃ w ∈ map.windows, w.contains address = true
              ∧ (∀ w' ∈ map.windows, w'.contains address = true → w' = w)
              ∧ (view w.buffer host).hold ≠ .exclusive
              ∧ (view w.buffer host).bytes[w.offset
                + (address.toNat - w.low.toNat)]? = some v)
            ∧ (map.serve peek bus).fetch address host
                = match map.fetch peek address host with
                  | some v => (v, host)
                  | none => bus.memory.readByte address host)
      ∧ FetchMap.rebuild? map.windows = some map.banks
      ∧ ∀ (peek : β → Nat → σ → Option UInt8) (address : UInt16) (host : σ),
          map.fetch? peek address host
            = some (map.fetch peek address host) := by
  intro map
  have h : map.Sound := FetchMap.sound_empty.afterAll calls
  refine ⟨h.disjoint, fun bank => ⟨h.sorted_bank bank, h.mem_bank_iff bank⟩,
    fun w => ?_,
    FetchMap.perform_ok_iff map, h.find?_eq, fun view bus address host v => ?_,
    h.rebuild?_eq, h.fetch?_eq⟩
  · rw [FetchMap.mem_afterAll FetchMap.sound_empty]
    exact or_iff_right fun hempty => nomatch hempty.1
  · intro peek
    refine ⟨?_, FetchMap.serve_fetch map peek bus address host⟩
    show (map.find? address).bind _ = some v ↔ _
    rw [Option.bind_eq_some_iff]
    -- the first window found is the only one, for no two serve one address
    constructor
    · rintro ⟨w, hfind, hpeek⟩
      obtain ⟨hw, hin⟩ := h.find?_eq_some_iff.1 hfind
      exact ⟨w, hw, hin, fun w' hw' hin' => h.unique hw' hw hin' hin,
        lookup?_eq_some_iff.1 hpeek⟩
    · rintro ⟨w, hw, hin, -, hpeek⟩
      exact ⟨w, h.find?_eq_some_iff.2 ⟨hw, hin⟩, lookup?_eq_some_iff.2 hpeek⟩

-- two windows in the fourth bank, one of them up to the end of the address
-- space
example :
    let map : FetchMap Bool :=
      .ofWindows [⟨0x1000, 0x31FF, true, 0⟩, ⟨0x3800, 0xFFFF, false, 7⟩]
    map.banks[3] = [0, 1] ∧ map.banks[15] = [1] ∧ map.find? 0x3200 = none
      ∧ (map.find? 0xFFFF).map (·.position 0xFFFF) = some 0xC806 := by
  decide

end ConsoleBoard.Z80
