/-
Fetch windows only speed things up.

A window may answer a fetch in place of memory, so it changes nothing
exactly if it answers what memory would have (`FetchMap.Faithful`): the bus
with such windows is the bus without them (`serve_of_faithful`), and no run
can tell.

Over flat RAM a window is faithful when it is plain, that is, when it looks
for each address at the place that the address has in RAM. The window and
RAM then ask the same buffer for the same byte at the same time. So it does
not matter what the program writes, how long the buffer still is or who
holds it: where the buffer has no byte to give, the window leaves the fetch
to RAM, which asks in vain as well.

Windows come and go in a session, among calls and among changes that the
host makes to its own state. Plain windows stay plain (`plain_install`), so
a session goes the same way when all of them are left out
(`windows_transparent`).
-/
import ConsoleBoard.Memory.Flat
import ConsoleBoard.Proofs.Z80.Reachable
import ConsoleBoard.Z80.FetchMap

namespace ConsoleBoard.Z80

variable {σ β : Type}

-- ======================================================== faithful windows

/-- What a bank leads to is an installed window with the address in it. -/
theorem mem_of_find? {map : FetchMap β} {address : UInt16} {w : FetchWindow β}
    (h : map.find? address = some w) :
    w ∈ map.windows ∧ w.contains address = true := by
  obtain ⟨i, -, hi⟩ := List.exists_of_findSome?_eq_some h
  obtain ⟨hw, hcontains⟩ := Option.filter_eq_some_iff.1 hi
  exact ⟨List.mem_of_getElem? hw, hcontains⟩

/-- Where a window has a byte for an address, memory has the same, and gives it
without effect on the host. -/
def FetchMap.Faithful (map : FetchMap β) (peek : β → Nat → σ → Option UInt8)
    (memory : MemoryBus σ) : Prop :=
  ∀ w ∈ map.windows, ∀ address host v, w.contains address = true →
    peek w.buffer (w.position address) host = some v →
      memory.readByte address host = (v, host)

/-- A bus with faithful windows is the bus without. -/
theorem serve_of_faithful {map : FetchMap β} {peek : β → Nat → σ → Option UInt8}
    {memory : MemoryBus σ} (h : map.Faithful peek memory) (ports : PortBus σ)
    (interrupts : InterruptBus σ) :
    map.serve peek (.ofParts memory ports interrupts)
      = .ofParts memory ports interrupts := by
  have hfetch : (map.serve peek (.ofParts memory ports interrupts)).fetch
      = memory.readByte := by
    funext address host
    unfold FetchMap.serve
    dsimp only
    split
    next v hserved =>
      obtain ⟨w, hfind, hpeek⟩ := Option.bind_eq_some_iff.1 hserved
      obtain ⟨hw, hcontains⟩ := mem_of_find? hfind
      exact (h w hw address host v hcontains hpeek).symm
    next => rfl
  show Bus.mk memory ports interrupts
    (map.serve peek (.ofParts memory ports interrupts)).fetch = _
  rw [hfetch]
  rfl

-- =========================================================== plain windows

/-- Every window starts at its low address in the buffer. -/
def FetchMap.Plain (map : FetchMap β) : Prop :=
  ∀ w ∈ map.windows, w.offset = w.low.toNat

/-- Without windows there is nothing in the way of memory. -/
theorem plain_empty : (FetchMap.empty : FetchMap β).Plain := nofun

/-- A plain window has each address at its own place. -/
theorem position_of_offset {w : FetchWindow β} (h : w.offset = w.low.toNat)
    {address : UInt16} (hin : w.contains address = true) :
    w.position address = address.toNat := by
  have hlow : w.low ≤ address :=
    of_decide_eq_true (Bool.and_eq_true_iff.1 hin).1
  rw [UInt16.le_iff_toNat_le] at hlow
  unfold FetchWindow.position
  omega

/-- Installing a window at its low address keeps the windows plain. -/
theorem plain_install {map map' : FetchMap β} {low high : UInt16} {buffer : β}
    {available : Nat} (hmap : map.Plain)
    (hinstall : map.install low high buffer available low.toNat = .ok map') :
    map'.Plain := by
  unfold FetchMap.install at hinstall
  split at hinstall
  · cases hinstall
  · split at hinstall
    · cases hinstall
    · cases hinstall
      intro w hw
      rcases List.mem_append.1 hw with hkept | hnew
      · exact hmap w (List.mem_filter.1 hkept).1
      · rw [List.mem_singleton.1 hnew]

-- ================================================================ flat RAM

/-- A host with flat RAM. Beside it there may be anything, also what reaches the
RAM: ports and acknowledge cycles work on the whole state. -/
structure FlatRig (σ : Type) where
  view : σ → FlatMemory
  update : (FlatMemory → FlatMemory) → σ → σ
  ports : PortBus σ
  interrupts : InterruptBus σ

namespace FlatRig

/-- The bus of the rig, with windows onto the buffer behind the RAM. -/
def bus (rig : FlatRig σ) (windows : FetchMap Unit) : Bus σ :=
  windows.serve (fun _ i host => (rig.view host).lookup? i)
    (.ofParts (FlatMemory.bus rig.view rig.update) rig.ports rig.interrupts)

/-- A byte that the buffer gives is the one that RAM reads. -/
theorem faithful_of_plain (rig : FlatRig σ) {windows : FetchMap Unit}
    (h : windows.Plain) :
    windows.Faithful (fun _ i host => (rig.view host).lookup? i)
      (FlatMemory.bus rig.view rig.update) := by
  intro w hw address host v hcontains hpeek
  rw [position_of_offset (h w hw) hcontains] at hpeek
  dsimp only at hpeek
  show (((rig.view host).lookup? address.toNat).getD openBusByte, host) = _
  rw [hpeek]
  rfl

/-- With plain windows the bus is that of the parts. -/
theorem bus_eq (rig : FlatRig σ) {windows : FetchMap Unit} (h : windows.Plain) :
    rig.bus windows
      = .ofParts (FlatMemory.bus rig.view rig.update) rig.ports
        rig.interrupts :=
  serve_of_faithful (rig.faithful_of_plain h) rig.ports rig.interrupts

/-- With plain windows the bus is the one without any. -/
theorem bus_of_plain (rig : FlatRig σ) {windows : FetchMap Unit}
    (h : windows.Plain) :
    rig.bus windows = rig.bus .empty := by
  rw [rig.bus_eq h, rig.bus_eq plain_empty]

-- ================================================================ sessions

/-- What happens around a processor on flat RAM. The host may do anything to its
own state between two calls: poke or shorten the buffer, hold it for the
next call, or let it go. -/
inductive Event (σ : Type)
  /-- Install a window onto the RAM, at its low address. -/
  | install (low high : UInt16)
  | clear
  | perform (op : Operation)
  | outside (change : σ → σ)

/-- The event is about windows and nothing else. -/
def Event.isWindow : Event σ → Bool
  | install _ _ | clear => true
  | perform _ | outside _ => false

/-- A processor on flat RAM, with what its calls have returned so far. -/
structure Session (σ : Type) where
  windows : FetchMap Unit := .empty
  z : Z80
  host : σ
  results : List (Option Int) := []

/-- The windows after one more is asked for. A refused one leaves the others as
they are. -/
def installed (rig : FlatRig σ) (s : Session σ) (low high : UInt16) :
    FetchMap Unit :=
  match s.windows.install low high ()
    (rig.view s.host).bytes.size low.toNat with
  | .ok windows => windows
  | .error _ => s.windows

private theorem plain_installed (rig : FlatRig σ) {s : Session σ}
    (h : s.windows.Plain) (low high : UInt16) :
    (rig.installed s low high).Plain := by
  unfold installed
  cases hinstall : s.windows.install low high ()
    (rig.view s.host).bytes.size low.toNat with
  | ok windows => exact plain_install h hinstall
  | error e => exact h

def after (rig : FlatRig σ) (s : Session σ) : Event σ → Session σ
  | .install low high => { s with windows := rig.installed s low high }
  | .clear => { s with windows := .empty }
  | .perform op =>
      let run := op.perform (rig.bus s.windows) s.z s.host
      { s with z := run.1.2, host := run.2, results := s.results ++ [run.1.1] }
  | .outside change => { s with host := change s.host }

def run (rig : FlatRig σ) (s : Session σ) (events : List (Event σ)) :
    Session σ :=
  events.foldl rig.after s

/-- The same session with plain windows and without any. -/
structure Twin (s bare : Session σ) : Prop where
  plain : s.windows.Plain
  none : bare.windows = .empty
  z : s.z = bare.z
  host : s.host = bare.host
  results : s.results = bare.results

namespace Twin

variable {rig : FlatRig σ} {s bare : Session σ}

/-- Windows come and go on one side only. -/
theorem window (h : Twin s bare) {event : Event σ}
    (hwindow : event.isWindow = true) :
    Twin (rig.after s event) bare := by
  cases event with
  | install low high =>
      exact { h with plain := rig.plain_installed h.plain low high }
  | clear => exact { h with plain := plain_empty }
  | perform op => cases hwindow
  | outside change => cases hwindow

/-- Everything else does the same on both. -/
theorem both (h : Twin s bare) {event : Event σ}
    (hother : event.isWindow = false) :
    Twin (rig.after s event) (rig.after bare event) := by
  cases event with
  | install low high => cases hother
  | clear => cases hother
  | perform op =>
      have hbus : rig.bus s.windows = rig.bus bare.windows := by
        rw [rig.bus_of_plain h.plain, h.none]
      unfold after
      dsimp only
      rw [hbus, h.z, h.host, h.results]
      exact ⟨h.plain, h.none, rfl, rfl, rfl⟩
  | outside change => exact { h with host := congrArg change h.host }

/-- So the two stay twins over a whole session. -/
theorem run (h : Twin s bare) (events : List (Event σ)) :
    Twin (rig.run s events)
      (rig.run bare (events.filter fun event => !event.isWindow)) := by
  induction events generalizing s bare with
  | nil => exact h
  | cons event rest ih =>
      cases hevent : event.isWindow with
      | true =>
          rw [List.filter_cons_of_neg (by rw [hevent]; decide)]
          exact ih (h.window hevent)
      | false =>
          rw [List.filter_cons_of_pos (by rw [hevent]; decide)]
          exact ih (h.both hevent)

end Twin

end FlatRig

-- ============================================================= the theorem

/-- Fetch windows only speed things up. Take any session of a processor on flat
RAM, from any core and any RAM on, in which windows onto the RAM are
installed at their low addresses, refused and cleared, in any number and any
order, while calls are made and the host shortens, pokes, holds and releases
the buffer. Leave all windows out: the calls return the same, and the
processor, with its counts of T-states, and the host, with its RAM, come out
the same. -/
theorem windows_transparent (rig : FlatRig σ) (z : Z80) (host : σ)
    (events : List (FlatRig.Event σ)) :
    let windowed := rig.run { z, host } events
    let bare := rig.run { z, host } (events.filter fun event => !event.isWindow)
    windowed.results = bare.results
      ∧ windowed.z = bare.z
      ∧ windowed.host = bare.host
      ∧ bare.windows.size = 0 := by
  intro windowed bare
  have hstart : FlatRig.Twin (σ := σ) { z, host } { z, host } :=
    ⟨plain_empty, rfl, rfl, rfl, rfl⟩
  have htwin : FlatRig.Twin windowed bare := hstart.run events
  exact ⟨htwin.results, htwin.z, htwin.host, by rw [htwin.none]; rfl⟩

-- five bytes of RAM take a window over all of them, and refuse one over six
example :
    let rig : FlatRig FlatMemory :=
      ⟨id, fun change ram => change ram, .unconnected, .unconnected⟩
    let ram : FlatMemory := { bytes := #[0x3E, 0x42, 0x76, 0x00, 0x00] }
    (rig.run { z := {}, host := ram } [.install 0 4, .install 0 5]).windows.size
      = 1 := by
  decide

end ConsoleBoard.Z80
