/-
A configuration that passes the check builds the machine that it describes.

The ports are connected one after the other, and a Team Player is given its
chained devices before the next port has its turn, so every port takes the next
numbers in a row: its own device first, then the chained ones in order. What a
port has taken is out of reach for the ports after it, which only add devices
and change those that they have added. So it is enough to know what one port
takes (`Fitted`, by `connect_ok`), and that the ports before it keep what they
have (`Holds.fitted`); `connect_all` carries both over the ports. The numbers
form one unbroken row (`Wires.names`), and that is why no device is used twice.

# Building

Building a hub is a loop over the ports, and connecting a port a loop over its
chained kinds. The inner loop only appends (`Extended`), and every link that it
makes is one that the hub does not refuse (`attach_linked`), so it succeeds with
the ids in a row (`chainFrom_ok`). The outer loop carries what has been wired
so far (`Wires`) from port to port, and at its end that is the whole wiring
(`Wires.describes`). The board and the frame length need no loop.
-/
import ConsoleBoard.Proofs.Config.Accepted
import ConsoleBoard.Proofs.Controller.Wiring

namespace ConsoleBoard

open Controller (Chained Device Hub Kind Peripheral Port TeamPlayer)
open Controller.Device (Act)

-- ======================================================= devices of a port

namespace Controller.Hub

/-- What is linked to the device on a port. -/
def links (hub : Hub) (port : Port) : List (Option Nat) :=
  ((hub.device? (hub.portDevice port)).map Device.chained).getD []

/-- The numbers of the devices that a port uses: the one on it, then those
chained to that one. -/
def names (hub : Hub) (port : Port) : List Nat :=
  hub.portDevice port :: (hub.links port).filterMap id

private theorem deviceCount_add (hub : Hub) (d : Peripheral) :
    (hub.add d).2.deviceCount = hub.deviceCount + 1 := Array.size_push d

/-- A device that is found has an id below the count. -/
theorem lt_deviceCount {hub : Hub} {id : Nat} {d : Peripheral}
    (h : hub.device? id = some d) :
    id < hub.deviceCount := lt_deviceCount_iff.2 (Option.isSome_of_mem h)

/-- A multitap takes any other device that is there. -/
theorem refusal_eq_none {hub : Hub} {tap port sub : Nat} {d : Peripheral}
    (hd : hub.device? tap = some d) (hport : port < TeamPlayer.portCount)
    (hsub : sub < hub.deviceCount) (hne : sub ≠ tap) :
    hub.layout.refusal tap port (some sub) = none := by
  have hfree :
      (some sub).filter (fun id => decide (hub.devices.size ≤ id) || id == tap)
        = none := by
    have hthere : ¬hub.devices.size ≤ sub := Nat.not_le.2 hsub
    simp [Option.filter_some, hthere, hne]
  unfold Layout.refusal
  rw [devices_layout, hd, size_layout, hfree]
  exact if_neg fun h => Nat.not_le.2 hport h.2

/-- What chaining does when it is not refused: the device is linked and seen,
and every other one is left alone. -/
theorem attach_linked {hub : Hub} {tap port sub : Nat} {d : Peripheral}
    (hd : hub.device? tap = some d) (hport : port < TeamPlayer.portCount)
    (hsub : sub < hub.deviceCount) (hne : sub ≠ tap) :
    ∃ after d', hub.attach tap port (some sub) = .ok after ∧ SameFrame hub after
      ∧ after.deviceCount = hub.deviceCount
      ∧ (∀ id ≠ tap, after.device? id = hub.device? id)
      ∧ after.device? tap = some d' ∧ d'.kind = d.kind
      ∧ d'.chained = d.chained.set port (some sub) := by
  -- the link is set first, and the device is shown what it links to after that
  have hlinked : ∀ id,
      ((hub.modify tap fun d => d.link port (some sub)).sync tap).device? id
      = (if tap = id then (hub.device? id).map fun d => d.link port (some sub)
          else hub.device? id).map fun d => d.acted
            ((Act.see ((hub.layout.linked tap port (some sub)).seenBy id)).only
              tap id) := by
    intro id
    rw [device?_sync, device?_modify, layout_link]
  refine ⟨(hub.modify tap fun d => d.link port (some sub)).sync tap,
    (d.link port (some sub)).see
      ((hub.layout.linked tap port (some sub)).seenBy tap),
    ?_, .trans ⟨fun _ => rfl, rfl⟩ (.sync _ tap), ?_, fun id hid => ?_,
    ?_, ?_, ?_⟩
  · rw [attach_eq, refusal_eq_none hd hport hsub hne]
  · rw [deviceCount_sync, deviceCount_modify]
  · have hother : ¬tap = id := fun h => hid h.symm
    rw [hlinked, if_neg hother, Act.only, if_neg hother]
    exact Option.map_id'
  · rw [hlinked, if_pos rfl, hd, Act.only, if_pos rfl]
    rfl
  · exact (congrArg (·.kind) ((d.link port (some sub)).outline_see _)).trans
      (congrArg (·.kind) (d.outline_link port (some sub)))
  · rw [Device.chained_see, Device.chained_link]

end Controller.Hub

namespace Config

-- ============================================================ one multitap

/-- Devices of some kinds have come to a hub, and at most one of the old devices
has changed. -/
structure Extended (hub : Hub) (tap : Nat) (kinds : List Kind)
    (after : Hub) : Prop where
  frame : Hub.SameFrame hub after
  count : after.deviceCount = hub.deviceCount + kinds.length
  others : ∀ id < hub.deviceCount, id ≠ tap → after.device? id = hub.device? id
  new : ∀ i kind, kinds[i]? = some kind →
    after.device? (hub.deviceCount + i) = some (Device.create (.ofKind kind))

/-- Chaining some and then the rest is chaining all of them. -/
theorem Extended.append {hub mid after : Hub} {tap : Nat}
    {kinds rest : List Kind} (htap : tap < hub.deviceCount)
    (h : Extended hub tap kinds mid) (h' : Extended mid tap rest after) :
    Extended hub tap (kinds ++ rest) after where
  frame := h.frame.trans h'.frame
  count := by rw [h'.count, h.count, List.length_append, Nat.add_assoc]
  others id hid hne := by
    have hstays : id < mid.deviceCount :=
      Nat.lt_of_lt_of_le hid (h.count ▸ Nat.le_add_right _ _)
    rw [h'.others id hstays hne, h.others id hid hne]
  new i kind hi := by
    by_cases hfirst : i < kinds.length
    · rw [List.getElem?_append_left hfirst] at hi
      have hthere : hub.deviceCount + i < mid.deviceCount :=
        h.count ▸ Nat.add_lt_add_left hfirst _
      rw [h'.others _ hthere (by omega), h.new i kind hi]
    · rw [List.getElem?_append_right (Nat.not_lt.1 hfirst)] at hi
      have hplace : hub.deviceCount + i
          = mid.deviceCount + (i - kinds.length) := by
        rw [h.count]
        omega
      rw [hplace, h'.new _ kind hi]

/-- A new device, chained to a virtual port. -/
theorem attach_new {hub : Hub} {tap port : Nat} {d : Peripheral} (kind : Kind)
    (hd : hub.device? tap = some d) (hport : port < TeamPlayer.portCount) :
    ∃ after d', (hub.add (Device.create (.ofKind kind))).2.attach tap port
      (some hub.deviceCount)
        = .ok after
      ∧ Extended hub tap [kind] after
      ∧ after.device? tap = some d' ∧ d'.kind = d.kind
      ∧ d'.chained = d.chained.set port (some hub.deviceCount) := by
  have htap : tap < hub.deviceCount := Hub.lt_deviceCount hd
  have hcount := hub.deviceCount_add (Device.create (.ofKind kind))
  have hadded := hub.device?_add (Device.create (.ofKind kind))
  have hmultitap := (hadded tap).trans (if_neg (Nat.ne_of_lt htap))
  obtain ⟨after, d', hattach, hframe, hsame, hothers, hafter, hkind, hlinks⟩ :=
    Hub.attach_linked (hmultitap.trans hd) hport (hcount ▸ Nat.lt_succ_self _)
      (Nat.ne_of_gt htap)
  refine ⟨after, d', hattach,
    ⟨.trans ⟨fun _ => rfl, rfl⟩ hframe, hsame.trans hcount, ?_, ?_⟩,
    hafter, hkind, hlinks⟩
  · intro id hid hne
    rw [hothers id hne, hadded, if_neg (Nat.ne_of_lt hid)]
  · intro i k hi
    obtain ⟨rfl, rfl⟩ : i = 0 ∧ kind = k := by
      simpa [List.getElem?_singleton] using hi
    rw [Nat.add_zero, hothers _ (Nat.ne_of_gt htap), hadded, if_pos rfl]

/-- Chaining new devices to the free ports of a multitap cannot fail. Each takes
the next number, and the ports are filled in order. -/
theorem chainFrom_ok {hub : Hub} {tap spare : Nat} {d : Peripheral}
    {kinds : List Kind} {linked : List (Option Nat)}
    (hd : hub.device? tap = some d)
    (hports : linked.length + kinds.length ≤ TeamPlayer.portCount)
    (hlinks : d.chained
      = linked ++ List.replicate (kinds.length + spare) none) :
    ∃ after d', chainFrom tap linked.length kinds hub = .ok after
      ∧ Extended hub tap kinds after
      ∧ after.device? tap = some d' ∧ d'.kind = d.kind
      ∧ d'.chained
        = linked ++ (List.range' hub.deviceCount kinds.length).map some
          ++ List.replicate spare none := by
  -- over the pads still to chain; `linked` grows as the free ports get fewer
  induction kinds generalizing hub d linked with
  | nil =>
      have hsame : Extended hub tap [] hub :=
        ⟨.refl hub, rfl, fun _ _ _ => rfl, fun i kind h => nomatch h⟩
      refine ⟨hub, d, rfl, hsame, hd, rfl, ?_⟩
      rw [hlinks, List.length_nil, Nat.zero_add, List.range'_zero, List.map_nil,
        List.append_nil]
  | cons kind rest ih =>
      have hroom : linked.length < TeamPlayer.portCount := by
        rw [List.length_cons] at hports
        omega
      obtain ⟨mid, dmid, hattach, hext, hmid, hkind, hset⟩ :=
        attach_new kind hd hroom
      have hmidlinks : dmid.chained
          = (linked ++ [some hub.deviceCount])
            ++ List.replicate (rest.length + spare) none := by
        rw [hset, hlinks, List.set_append_right _ _ (Nat.le_refl _),
          Nat.sub_self, List.length_cons, Nat.add_right_comm,
          List.replicate_succ, List.set_cons_zero, List.append_assoc,
          List.singleton_append]
      -- the new link is at the end of `linked`, so the next port is the next
      -- place
      have hlength : (linked ++ [some hub.deviceCount]).length
          = linked.length + 1 := by
        rw [List.length_append, List.length_singleton]
      have hrest : (linked ++ [some hub.deviceCount]).length + rest.length
          ≤ TeamPlayer.portCount := by
        rw [hlength, Nat.add_right_comm]
        exact hports
      obtain ⟨after, d', hchain, hext', hafter, hkind', hlinks'⟩ :=
        ih hmid hrest hmidlinks
      refine ⟨after, d', ?_, hext.append (Hub.lt_deviceCount hd) hext', hafter,
        hkind'.trans hkind, ?_⟩
      · rw [hlength] at hchain
        show ((hub.add (Device.create (.ofKind kind))).2.attach tap
          linked.length (some hub.deviceCount) >>= fun hub =>
            chainFrom tap (linked.length + 1) rest hub) = _
        rw [hattach]
        exact hchain
      · have hcount : mid.deviceCount = hub.deviceCount + 1 := hext.count
        rw [hlinks', hcount, List.length_cons, List.range'_succ, List.map_cons,
          List.append_assoc linked [_]]
        rfl

-- ================================================================ one port

/-- How many devices a port uses. -/
def demand (c : Config) (port : Port) : Nat :=
  1 + if c.ports.kind port = .teamPlayer then c.chained.length else 0

/-- A port has what the configuration says of it: a device of its kind, which is
linked to nothing if it is no multitap, and otherwise to new devices of the
configured kinds, in order from its first virtual port on. -/
structure Holds (c : Config) (hub : Hub) (port : Port) : Prop where
  kind : (hub.device? (hub.portDevice port)).map Device.kind
      = some (c.ports.kind port)
  links : hub.links port = if c.ports.kind port = .teamPlayer then
      (List.range' (hub.portDevice port + 1) c.chained.length).map some
        ++ List.replicate (TeamPlayer.portCount - c.chained.length) none
    else []
  new : c.ports.kind port = .teamPlayer → ∀ i kind, c.chained[i]? = some kind →
    hub.device? (hub.portDevice port + 1 + i)
      = some (Device.create (.ofKind kind))

/-- What connecting a port does: its devices come to the hub, and the other
ports and devices are left alone. -/
structure Fitted (c : Config) (hub : Hub) (port : Port)
    (after : Hub) : Prop where
  ports : ∀ p, after.portDevice p
      = if port = p then hub.deviceCount else hub.portDevice p
  count : after.deviceCount = hub.deviceCount + c.demand port
  others : ∀ id < hub.deviceCount, after.device? id = hub.device? id
  held : c.Holds after port

/-- Connecting a new device adds it under the next id. -/
private theorem device?_connectNew (hub : Hub) (port : Port) (kind : Kind)
    (id : Nat) :
    (hub.connectNew port kind).2.device? id
      = if id = hub.deviceCount then some (Device.create (.ofKind kind))
        else hub.device? id :=
  hub.device?_add _ id

/-- Connecting a new device shows it on its port and on no other. -/
private theorem portDevice_connectNew (hub : Hub) (port : Port) (kind : Kind)
    (p : Port) :
    (hub.connectNew port kind).2.portDevice p
      = if port = p then hub.deviceCount else hub.portDevice p :=
  (Hub.frame_after hub (.connectNew port kind)).1 p

/-- Only a multitap has anything chained to it. -/
private theorem chained_create {kind : Kind} (h : kind ≠ .teamPlayer) :
    (Device.create (.ofKind kind) : Peripheral).chained = [] := by
  cases kind <;> first | rfl | exact absurd rfl h

/-- Connecting what an accepted configuration names succeeds, and fits it. -/
theorem Accepted.connect_ok {c : Config} (hc : c.Accepted) (hub : Hub)
    (port : Port) :
    ∃ after, c.connect hub port = .ok after ∧ c.Fitted hub port after := by
  have hkind : (Device.create (.ofKind (c.ports.kind port)) : Peripheral).kind
      = c.ports.kind port := by
    cases c.ports.kind port <;> rfl
  have hfirst := device?_connectNew hub port (c.ports.kind port)
  have hports := portDevice_connectNew hub port (c.ports.kind port)
  have hcount : (hub.connectNew port (c.ports.kind port)).2.deviceCount
      = hub.deviceCount + 1 :=
    hub.deviceCount_add _
  have hnew := (hfirst hub.deviceCount).trans (if_pos rfl)
  by_cases htap : c.ports.kind port = .teamPlayer
  · -- a new multitap has nothing on its ports, so all of them are free
    have hfree :
        (Device.create (.ofKind (c.ports.kind port)) : Peripheral).chained
        = [] ++ List.replicate
            (c.chained.length + (TeamPlayer.portCount - c.chained.length))
              none := by
      rw [Nat.add_sub_cancel' hc.ports, htap]
      rfl
    obtain ⟨after, d, hchain, hext, hd, hkind', hlinks⟩ :=
      chainFrom_ok hnew (by simpa using hc.ports) hfree
    have hport : after.portDevice port = hub.deviceCount := by
      rw [hext.frame.1, hports, if_pos rfl]
    refine ⟨after, (if_pos htap).trans hchain, ?_, ?_, ?_, ?_, ?_, ?_⟩
    · exact fun p => (hext.frame.1 p).trans (hports p)
    · rw [hext.count, hcount, demand, if_pos htap, Nat.add_assoc]
    · intro id hid
      rw [hext.others id (by omega) (Nat.ne_of_lt hid), hfirst,
        if_neg (Nat.ne_of_lt hid)]
    · rw [hport, hd, Option.map_some, hkind', hkind]
    · rw [if_pos htap, Hub.links, hport, hd, ← hcount]
      exact hlinks
    · intro _ i kind hi
      rw [hport, ← hcount]
      exact hext.new i kind hi
  · have hport : (hub.connectNew port (c.ports.kind port)).2.portDevice port
        = hub.deviceCount := by
      rw [hports, if_pos rfl]
    refine ⟨(hub.connectNew port (c.ports.kind port)).2, if_neg htap,
      hports, ?_, ?_, ?_, ?_, fun h => absurd h htap⟩
    · rw [demand, if_neg htap]
      exact hcount
    · exact fun id hid => (hfirst id).trans (if_neg (Nat.ne_of_lt hid))
    · rw [hport, hnew, Option.map_some, hkind]
    · rw [if_neg htap, Hub.links, hport, hnew]
      exact chained_create htap

-- =============================================================== all ports

/-- The devices of a port are as many as it uses, with numbers in a row. -/
theorem Holds.names {c : Config} {hub : Hub} {port : Port}
    (h : c.Holds hub port) :
    hub.names port = List.range' (hub.portDevice port) (c.demand port) := by
  unfold Hub.names demand
  rw [h.links, Nat.add_comm 1, List.range'_succ]
  split
  · rw [List.filterMap_append, List.filterMap_map,
      List.filterMap_replicate_of_none rfl, List.append_nil]
    exact congrArg _ List.filterMap_some
  · rfl

/-- The ports before keep what they have, as far as their devices are there. -/
theorem Holds.fitted {c : Config} {hub after : Hub} {port p : Port}
    (h : c.Holds hub p) (hfitted : c.Fitted hub port after) (hne : port ≠ p)
    (hthere : ∀ id ∈ hub.names p, id < hub.deviceCount) :
    c.Holds after p ∧ after.names p = hub.names p := by
  have hport : after.portDevice p = hub.portDevice p :=
    (hfitted.ports p).trans (if_neg hne)
  have hdevice : after.device? (after.portDevice p)
      = hub.device? (hub.portDevice p) := by
    rw [hport, hfitted.others _ (hthere _ List.mem_cons_self)]
  have hlinks : after.links p = hub.links p := by
    unfold Hub.links
    rw [hdevice]
  refine ⟨⟨?_, ?_, fun htap i kind hi => ?_⟩, ?_⟩
  · rw [hdevice, h.kind]
  · rw [hlinks, hport, h.links]
  · have hmem : hub.portDevice p + 1 + i ∈ hub.names p := by
      have hlt : i < c.chained.length := (List.getElem?_eq_some_iff.1 hi).1
      rw [h.names, List.mem_range'_1, demand, if_pos htap]
      omega
    rw [hport, hfitted.others _ (hthere _ hmem), h.new htap i kind hi]
  · unfold Hub.names
    rw [hport, hlinks]

/-- Some ports are connected: each has what is configured, and together they use
the numbers from `start` on, each of them once. -/
structure Wires (c : Config) (start : Nat) (done : List Port)
    (hub : Hub) : Prop where
  holds : ∀ port ∈ done, c.Holds hub port
  names : done.flatMap hub.names = List.range' start (hub.deviceCount - start)
  start : start ≤ hub.deviceCount

/-- One more port is wired, and those before it stay as they are. -/
theorem Wires.fitted {c : Config} {start : Nat} {done : List Port}
    {hub after : Hub} {port : Port} (h : c.Wires start done hub)
    (hport : port ∉ done) (hfitted : c.Fitted hub port after) :
    c.Wires start (done ++ [port]) after := by
  -- the new devices have numbers that no port before names
  have hkeeps : ∀ p ∈ done, c.Holds after p ∧ after.names p = hub.names p := by
    intro p hp
    refine (h.holds p hp).fitted hfitted
      (fun heq => hport (heq ▸ hp)) fun id hid => ?_
    have hmem : id ∈ done.flatMap hub.names := List.mem_flatMap.2 ⟨p, hp, hid⟩
    rw [h.names, List.mem_range'_1] at hmem
    omega
  have hown : after.names port = List.range' hub.deviceCount
      (c.demand port) := by
    rw [hfitted.held.names, hfitted.ports, if_pos rfl]
  have hstart := h.start
  have hcount := hfitted.count
  refine ⟨fun p hp => ?_, ?_, by omega⟩
  · rcases List.mem_append.1 hp with hold | hnew
    · exact (hkeeps p hold).1
    · rw [List.mem_singleton.1 hnew]
      exact hfitted.held
  · have hbefore : done.flatMap after.names = done.flatMap hub.names :=
      congrArg List.flatten (List.map_congr_left fun p hp => (hkeeps p hp).2)
    have hsplit : after.deviceCount - start
        = (hub.deviceCount - start) + c.demand port := by omega
    have hjoin : start + (hub.deviceCount - start) = hub.deviceCount := by omega
    rw [List.flatMap_append, List.flatMap_singleton, hbefore, h.names,
      hown, hsplit, ← List.range'_append_1, hjoin]

/-- All ports are wired one by one, and none of them fails. -/
theorem Accepted.connect_all {c : Config} (hc : c.Accepted) {start : Nat}
    {ports done : List Port} {hub : Hub} (hnodup : (done ++ ports).Nodup)
    (h : c.Wires start done hub) :
    ∃ after, ports.foldlM c.connect hub = .ok after
      ∧ c.Wires start (done ++ ports) after := by
  induction ports generalizing done hub with
  | nil => exact ⟨hub, rfl, (List.append_nil done).symm ▸ h⟩
  | cons port rest ih =>
      have hfresh : port ∉ done := fun hmem =>
        (List.nodup_append.1 hnodup).2.2 port hmem port List.mem_cons_self rfl
      obtain ⟨mid, hconnect, hfitted⟩ := hc.connect_ok hub port
      rw [List.append_cons] at hnodup ⊢
      obtain ⟨after, hrest, hwires⟩ := ih hnodup (h.fitted hfresh hfitted)
      refine ⟨after, ?_, hwires⟩
      rw [List.foldlM_cons, hconnect]
      exact hrest

-- ============================================================= the machine

/-- A hub is the machine that a configuration describes. Each port has a device
of its kind. The virtual ports of a multitap have new devices of the configured
kinds, in order, and those above are free. All these devices are different ones,
and none of them was there before the ports were connected. -/
structure Describes (c : Config) (hub : Hub) : Prop where
  kinds : ∀ port, (hub.device? (hub.portDevice port)).map Device.kind
      = some (c.ports.kind port)
  chained : ∀ port, c.ports.kind port = .teamPlayer →
    ∀ (i : Nat) (kind : Kind), c.chained[i]? = some kind →
      ∃ sub, (hub.links port)[i]? = some (some sub)
        ∧ hub.device? sub = some (Device.create (.ofKind kind))
  free : ∀ port, c.ports.kind port = .teamPlayer →
    ∀ i, c.chained.length ≤ i → i < TeamPlayer.portCount →
      (hub.links port)[i]? = some none
  once : (Port.all.flatMap hub.names).Nodup
  fresh : ∀ id ∈ Port.all.flatMap hub.names, Hub.empty.deviceCount ≤ id

/-- A hub wired on all ports is the one described. -/
theorem Wires.describes {c : Config} {hub : Hub}
    (h : c.Wires Hub.empty.deviceCount Port.all hub) : c.Describes hub := by
  have hholds : ∀ port, c.Holds hub port :=
    fun port => h.holds port (by cases port <;> decide)
  have hlength : ∀ port,
      ((List.range' (hub.portDevice port + 1) c.chained.length).map some).length
      = c.chained.length :=
        fun port => by rw [List.length_map, List.length_range']
  refine ⟨fun port => (hholds port).kind, fun port htap i kind hi => ?_,
    fun port htap i habove hi => ?_, ?_, fun id hid => ?_⟩
  · have hlt : i < c.chained.length := (List.getElem?_eq_some_iff.1 hi).1
    refine ⟨hub.portDevice port + 1 + i, ?_, (hholds port).new htap i kind hi⟩
    rw [(hholds port).links, if_pos htap,
      List.getElem?_append_left (by rwa [hlength]), List.getElem?_map,
      List.getElem?_range' hlt, Nat.one_mul]
    rfl
  · rw [(hholds port).links, if_pos htap,
      List.getElem?_append_right (by rwa [hlength]), hlength,
      List.getElem?_replicate, if_pos (by omega)]
  · rw [h.names]
    exact List.nodup_range'
  · rw [h.names, List.mem_range'_1] at hid
    exact hid.1

/-- The hub of an accepted configuration is built as described. -/
theorem Accepted.buildHub_ok {c : Config} (hc : c.Accepted) :
    ∃ hub, c.buildHub = .ok hub ∧ c.Describes hub := by
  have hempty : c.Wires Hub.empty.deviceCount [] Hub.empty :=
    ⟨(fun _ h => nomatch h), by rw [Nat.sub_self]; rfl, Nat.le_refl _⟩
  have hports : ([] ++ Port.all).Nodup := by decide
  obtain ⟨hub, hbuilt, hwires⟩ := hc.connect_all hports hempty
  refine ⟨hub, ?_, hwires.describes⟩
  unfold buildHub
  rw [(validate_eq_ok_iff c).2 hc, hbuilt]
  rfl

/-- A frame of an accepted configuration has cycles in it. -/
theorem Accepted.frame_pos {c : Config} (hc : c.Accepted) : 0 < c.frame :=
  Nat.mul_pos (Nat.pos_of_ne_zero fun h => hc.cycles (UInt32.toNat_inj.1 h))
    (Nat.pos_of_ne_zero fun h => hc.lines (UInt32.toNat_inj.1 h))

/-- A frame is counted in a word that has room for it. -/
theorem frame_eq_toNat (c : Config) :
    (c.cyclesPerLine.toUInt64 * c.linesPerFrame.toUInt64).toNat = c.frame := by
  have hlt : c.cyclesPerLine.toNat * c.linesPerFrame.toNat < 2 ^ 32 * 2 ^ 32 :=
    Nat.mul_lt_mul'' c.cyclesPerLine.toNat_lt c.linesPerFrame.toNat_lt
  rw [UInt64.toNat_mul, UInt32.toNat_toUInt64, UInt32.toNat_toUInt64]
  exact Nat.mod_eq_of_lt hlt

/-- The part of an accepted configuration is found in the board database. -/
theorem Accepted.buildEeprom_ok {c : Config} (hc : c.Accepted) :
    ∃ e, c.buildEeprom = .ok e ∧ (c.eepromType = none → e.mapper = none)
      ∧ ∀ index, c.eepromType = some index → ∃ board,
        Eeprom.Board.database[index]? = some board
          ∧ e.mapper = some board.mapper := by
  unfold buildEeprom
  cases htype : c.eepromType with
  | none => exact ⟨Eeprom.blank.reset, rfl, fun _ => rfl, fun _ h => nomatch h⟩
  | some index =>
      obtain ⟨board, hboard⟩ : ∃ board, Eeprom.Board.database[index]?
        = some board :=
        ⟨_, List.getElem?_eq_getElem (hc.board index htype)⟩
      have hselect : Eeprom.blank.select (some index)
          = .ok { Eeprom.blank with mapper := some board.mapper } := by
        unfold Eeprom.select
        dsimp only
        rw [hboard]
      refine ⟨{ Eeprom.blank with mapper := some board.mapper }, ?_,
        (fun h => nomatch h), ?_⟩
      · rw [hselect]
        rfl
      · rintro _ ⟨⟩
        exact ⟨board, hboard, rfl⟩

/-- A configuration that passes the check is built: the frame is the product of
its two factors, with room for it in a word of each size that it goes through,
the ports are those described, and the EEPROM has the board with the configured
number. Otherwise the ports are refused for what the check has found. -/
theorem builds_as_described (c : Config) :
    (c.validate = .ok () →
      (c.cyclesPerFrame = c.cyclesPerLine.toNat * c.linesPerFrame.toNat
        ∧ c.cyclesPerFrame
          = (c.cyclesPerLine.toUInt64 * c.linesPerFrame.toUInt64).toNat
        ∧ 0 < c.cyclesPerFrame ∧ c.cyclesPerFrame < 2 ^ 31)
      ∧ (∃ hub, c.buildHub = .ok hub ∧ c.Describes hub)
      ∧ ∃ e, c.buildEeprom = .ok e ∧ (c.eepromType = none → e.mapper = none)
        ∧ ∀ index, c.eepromType = some index → ∃ board,
          Eeprom.Board.database[index]? = some board
            ∧ e.mapper = some board.mapper)
    ∧ ∀ e, c.validate = .error e → c.buildHub = .error (.config e) := by
  refine ⟨fun hvalid => ?_, fun e hinvalid => ?_⟩
  · have hc : c.Accepted := (validate_eq_ok_iff c).1 hvalid
    have hfits : c.frame ≤ 2147483647 - 64 := hc.frame
    have hframe : c.cyclesPerFrame = c.frame := Nat.min_eq_left (by omega)
    rw [frame_eq_toNat, hframe]
    exact ⟨⟨rfl, rfl, hc.frame_pos, by omega⟩, hc.buildHub_ok,
      hc.buildEeprom_ok⟩
  · unfold buildHub
    rw [hinvalid]
    rfl

/-- Two multitaps with three devices each, one of them a paddle, and a frame as
long as any can be. -/
theorem builds_as_described_multitaps :
    let c : Config :=
      { cyclesPerLine := 2147483583, linesPerFrame := 1, eepromType := some 7
        ports := { one := .teamPlayer, two := .sixButton, ext := .teamPlayer }
        chained := [.threeButton, .paddle, .sixButton] }
    c.validate = .ok () ∧ c.cyclesPerFrame = 2147483583
      ∧ (∃ hub, c.buildHub = .ok hub ∧ c.Describes hub)
      ∧ ∃ e, c.buildEeprom = .ok e
      ∧ (e.mapper.map (·.chip)) = some .c24C64 := by
  intro c
  have hvalid : c.validate = .ok () := by decide
  obtain ⟨⟨hframe, -⟩, hhub, e, he, -, hboard⟩ :=
    (builds_as_described c).1 hvalid
  obtain ⟨board, hindex, hmapper⟩ := hboard 7 rfl
  obtain rfl : _ = board := Option.some.inj hindex
  exact ⟨hvalid, hframe.trans (by decide), hhub, e, he, by rw [hmapper]; rfl⟩

end Config

end ConsoleBoard
