/-
The buttons that a device has.

A host gives buttons by the number of a device or by a port, and the hub
releases opposite directions on their way to a pad. Nothing else presses a
button, so a device has the word that was given last, as far as directions
allow (`Hub.given`, `Holds`), through exchanges and resets in any order.

Multitaps show copies. What a multitap has seen of a pad was once the outline
of a device in the same hub (`Layout.states_mem_eventActs`), so it cannot have
opposite directions either, even where the device itself has long been
exchanged.
-/
import ConsoleBoard.Proofs.Controller.Effect

namespace ConsoleBoard.Controller

open Device (Act)

-- ========================================================== the directions

/-- The pairs of directions that exclude each other. -/
def Button.opposites : List UInt32 :=
  [Button.up ||| Button.down, Button.left ||| Button.right]

/-- No two opposite directions are pressed. -/
def Unopposed (buttons : UInt32) : Prop :=
  ∀ pair ∈ Button.opposites, buttons &&& pair ≠ 0

instance (buttons : UInt32) : Decidable (Unopposed buttons) :=
  List.decidableBAll (fun pair => buttons &&& pair ≠ 0) Button.opposites

section

variable {pair mask : UInt32}

theorem or_and_distrib (a b c : UInt32) :
    (a ||| b) &&& c = a &&& c ||| b &&& c := by
  apply UInt32.toNat_inj.1
  simp only [UInt32.toNat_and, UInt32.toNat_or]
  exact Nat.and_or_distrib_right _ _ _

/-- A released pair keeps one direction at most. -/
private theorem releasePair_and_self (pair buttons : UInt32) :
    releasePair pair buttons &&& pair
      = if buttons &&& pair = 0 then pair else buttons &&& pair := by
  unfold releasePair
  split
  next hpressed =>
    rw [or_and_distrib, hpressed, UInt32.and_self, UInt32.zero_or]
  next => rfl

/-- Releasing a pair leaves the buttons outside it. -/
private theorem releasePair_and (h : pair &&& mask = 0) (buttons : UInt32) :
    releasePair pair buttons &&& mask = buttons &&& mask := by
  unfold releasePair
  split
  · rw [or_and_distrib, h, UInt32.or_zero]
  · rfl

/-- A pair that is pressed is released, and otherwise it stays. -/
theorem constrainDpad_and_pair (buttons : UInt32) :
    ∀ pair ∈ Button.opposites, constrainDpad buttons &&& pair
      = if buttons &&& pair = 0 then pair else buttons &&& pair := by
  unfold constrainDpad
  intro pair hpair
  rcases List.mem_cons.1 hpair with rfl | hpair
  · rw [releasePair_and (by decide)]
    exact releasePair_and_self _ _
  · obtain rfl := List.mem_singleton.1 hpair
    rw [releasePair_and_self, releasePair_and (by decide)]

/-- All other buttons stay. -/
theorem constrainDpad_and (h : ∀ pair ∈ Button.opposites, pair &&& mask = 0)
    (buttons : UInt32) :
    constrainDpad buttons &&& mask = buttons &&& mask := by
  unfold constrainDpad
  rw [releasePair_and (h _ (by decide)), releasePair_and (h _ (by decide))]

/-- Behind the constraint no two directions oppose each other. -/
private theorem unopposed_constrainDpad (buttons : UInt32) :
    Unopposed (constrainDpad buttons) := by
  intro pair hpair
  have hnonzero : pair ≠ 0 := by
    simp only [Button.opposites, List.mem_cons, List.not_mem_nil,
      or_false] at hpair
    rcases hpair with rfl | rfl <;> decide
  rw [constrainDpad_and_pair buttons pair hpair]
  split
  next => exact hnonzero
  next hreleased => exact hreleased

end

-- ============================================================ what is seen

/-- A pad, and no other device that has directions. -/
def Kind.IsPad (kind : Kind) : Prop :=
  kind = .twoButton ∨ kind = .threeButton ∨ kind = .sixButton

/-- A picture of a pad shows no opposite directions. -/
def Chained.Proper (s : Chained) : Prop := s.kind.IsPad → Unopposed s.buttons

namespace Device

/-- What a multitap has seen of its devices. -/
def seen (d : Peripheral) : List (Option Chained) :=
  match d.own with
  | .teamPlayer tap => tap.seen.toList
  | _ => []

private theorem seen_of_own {d d' : Peripheral} (h : d'.own = d.own) :
    d'.seen = d.seen := by
  unfold seen
  rw [h]

private theorem own_call (c : Call) (d : Peripheral) :
    (c.apply d).own = d.own := by
  cases c with
  | scanline =>
      show d.scanline.own = d.own
      unfold scanline
      split <;> rfl
  | noteRead =>
      show d.noteRead.own = d.own
      unfold noteRead
      split <;> rfl
  | writeControl v | writeData v | update buttons | moveTo x y | setPin58 v
  | refresh | reset => rfl

/-- A link shows nothing new. -/
theorem mem_seen_link {d : Peripheral} {port : Nat} {sub : Option Nat}
    {s : Chained} (h : some s ∈ (d.link port sub).seen) : some s ∈ d.seen := by
  obtain ⟨core, own⟩ := d
  cases own with
  | teamPlayer tap =>
      by_cases hport : port < 4
      · rw [link_tap core tap hport] at h
        have hseen : some s ∈
            (if sub.isNone then tap.seen.set port none else tap.seen).toList :=
              h
        show some s ∈ tap.seen.toList
        split at hseen
        next =>
          rw [Vector.toList_set hport] at hseen
          exact (List.mem_or_eq_of_mem_set hseen).resolve_right nofun
        next => exact hseen
      · rwa [link_outside core tap hport] at h
  | none | twoButton | threeButton | sixButton | paddle | coleco => exact h

/-- What is seen behind an observation was seen before, or is what was
observed. -/
private theorem mem_seen_observe {d : Peripheral} {port : Nat}
    {state : Option Chained}
    {s : Chained} (h : some s ∈ seen (d.observe port state)) :
    some s ∈ d.seen ∨ some s = state := by
  obtain ⟨core, own⟩ := d
  cases own with
  | teamPlayer tap =>
      have hshown : some s ∈ (tap.observe port state).seen.toList := h
      unfold TeamPlayer.observe at hshown
      split at hshown
      next hport =>
        rw [Vector.toList_set hport] at hshown
        exact List.mem_or_eq_of_mem_set hshown
      next => exact .inl hshown
  | none | twoButton | threeButton | sixButton | paddle | coleco => exact .inl h

private theorem mem_seen_observeFrom {d : Peripheral} {port : Nat}
    {states : List (Option Chained)} {s : Chained}
    (h : some s ∈ seen (Hub.observeFrom d port states)) :
    some s ∈ d.seen ∨ some s ∈ states := by
  induction states generalizing d port with
  | nil => exact .inl h
  | cons state rest ih =>
      rcases ih h with hshown | hrest
      · rcases mem_seen_observe hshown with hold | rfl
        · exact .inl hold
        · exact .inr List.mem_cons_self
      · exact .inr (List.mem_cons_of_mem state hrest)

/-- What is seen behind a look was seen before, or is what was looked at. -/
private theorem mem_seen_see {d : Peripheral} {states : List (Option Chained)}
    {s : Chained} (h : some s ∈ (d.see states).seen) :
    some s ∈ d.seen ∨ some s ∈ states := by
  unfold see at h
  split at h
  · exact .inl h
  · exact mem_seen_observeFrom h

private theorem seen_create (kind : Kind) :
    ∀ x ∈ seen (Device.create (.ofKind kind)), x = none := by
  cases kind <;> decide

/-- What an act shows to a device. -/
def Act.states : Act → List (Option Chained)
  | link _ _ states | see states | access states _ => states
  | _ => []

/-- What a device has seen, it had seen before an act, or the act shows it. -/
theorem mem_seen_act {d : Peripheral} {a : Act} {s : Chained}
    (h : some s ∈ (a.apply d).seen) :
    some s ∈ d.seen ∨ some s ∈ a.states := by
  cases a with
  | place kind =>
      exact nomatch seen_create kind _ h
  | link port sub states =>
      rcases mem_seen_see (d := d.link port sub) h with hold | hshown
      · exact .inl (mem_seen_link hold)
      · exact .inr hshown
  | see states => exact mem_seen_see h
  | access states c =>
      exact mem_seen_see (seen_of_own (own_call c (d.see states)) ▸ h)
  | press buttons => exact .inl h
  | call c => exact .inl (seen_of_own (own_call c d) ▸ h)
  | sendSerial v | setSerial v | restart => exact .inl h

/-- The call that an act passes on. -/
def Act.call? : Act → Option Call
  | call c | access _ c => some c
  | _ => none

/-- The act shows proper pictures, and does not press buttons past the hub. -/
structure Act.Proper (a : Act) : Prop where
  shows : ∀ s, some s ∈ a.states → s.Proper
  calls : ∀ buttons, a.call? ≠ some (.update buttons)

end Device

namespace Layout

variable {l : Layout}

/-- No pad has opposite directions. -/
def Proper (l : Layout) : Prop :=
  ∀ (id : Nat) (x : Outline), l.devices[id]? = some x → x.toChained.Proper

/-- All that a multitap sees is constrained. -/
theorem Proper.seenBy (h : l.Proper) {id : Nat} {s : Chained}
    (hs : some s ∈ l.seenBy id) :
    s.Proper := by
  unfold Layout.seenBy at hs
  split at hs
  next =>
    obtain ⟨sub, -, hsub⟩ := List.mem_map.1 hs
    obtain ⟨target, -, htarget⟩ := Option.bind_eq_some_iff.1 hsub
    obtain ⟨x, hx, rfl⟩ := Option.map_eq_some_iff.1 htarget
    exact h target x hx
  next => cases hs

/-- A link keeps the layout proper. -/
theorem Proper.linked (h : l.Proper) (tap port : Nat) (sub : Option Nat) :
    (l.linked tap port sub).Proper := by
  intro id x hx
  have hmodify : (l.devices.modify tap fun x => { x with
        links := x.links.set port sub })[id]?
      = some x := hx
  rw [Array.getElem?_modify] at hmodify
  split at hmodify
  next =>
    obtain ⟨old, hold, rfl⟩ := Option.map_eq_some_iff.1 hmodify
    exact h id old hold
  next => exact h id x hmodify

private theorem proper_released (l : Layout) : l.released.Proper := by
  intro id x hx _
  have hmap : (l.devices.map fun x => { x with
        buttons := Button.released })[id]? = some x := hx
  obtain ⟨old, -, rfl⟩ :=
    Option.map_eq_some_iff.1 (Array.getElem?_map.symm.trans hmap)
  show Unopposed Button.released
  decide

/-- Every act that an operation makes of a proper layout is proper. -/
theorem Proper.acts (h : l.Proper) (id : Nat) (op : Hub.Operation) :
    ∀ a ∈ l.acts id op, a.Proper := by
  have honly : ∀ {b : Act} (target : Nat), b.Proper →
      ∀ a ∈ b.only target id, a.Proper :=
    fun _ hb => Act.forall_only fun _ => hb
  have hseen : ∀ s, some s ∈ l.seenBy id → s.Proper := fun _ => h.seenBy
  cases op with
  | add _ | connect _ _ | connectNew _ _ | readControl _ => nofun
  | replace target kind | updateButtons target buttons
  | updatePort target buttons | moveTo target x y =>
      exact honly _ ⟨nofun, nofun⟩
  | attach tap port sub =>
      show ∀ a ∈ ite _ _ _, _
      split
      next => nofun
      next => exact honly tap ⟨fun _ => (h.linked tap port sub).seenBy, nofun⟩
  | scanline | resetDevices => exact List.forall_mem_singleton.2 ⟨nofun, nofun⟩
  | reset =>
      -- after the reset each port is shown the released layout
      refine List.forall_mem_cons.2 ⟨⟨nofun, nofun⟩, fun a ha => ?_⟩
      obtain ⟨port, -, hlook⟩ := List.mem_flatMap.1 ha
      have hlooks : (Act.see (l.released.seenBy id)).Proper :=
        ⟨fun _ => l.proper_released.seenBy, nofun⟩
      exact honly _ hlooks a hlook
  | readData port | writeData port v | writeControl port v =>
      exact honly _ ⟨hseen, nofun⟩
  | readRegister index =>
      unfold Layout.acts
      dsimp only
      split
      · exact honly _ ⟨hseen, nofun⟩
      · nofun
  | writeRegister index v =>
      unfold Layout.acts
      dsimp only
      split
      · exact honly _ ⟨hseen, nofun⟩
      · exact honly _ ⟨hseen, nofun⟩
      · exact honly _ ⟨nofun, nofun⟩
      · exact honly _ ⟨nofun, nofun⟩
      · nofun

end Layout

/-- The host presses a device's buttons past the hub. -/
def Hub.Event.PressesDirectly : Event → Prop
  | device _ (.update _) => True
  | _ => False

/-- Every act that an event makes of a proper layout is proper, unless the
event presses past the hub. -/
theorem Layout.Proper.eventActs {l : Layout} (h : l.Proper) (id : Nat)
    {e : Hub.Event} (he : ¬e.PressesDirectly) :
    ∀ a ∈ l.eventActs id e, a.Proper := by
  cases e with
  | operation op => exact h.acts id op
  | setVersion v => nofun
  | device target c =>
      refine Act.forall_only fun _ => ⟨nofun, fun buttons hc => ?_⟩
      cases hc
      exact he trivial

-- =========================================================== what is given

namespace Device

/-- The buttons that a device is given by a call, or had been given before. -/
def Call.given (w : UInt32) : Call → UInt32
  | update buttons => buttons
  | reset => Button.released
  | _ => w

/-- The buttons that a device is given by an act, or had been given before. -/
def Act.given (w : UInt32) : Act → UInt32
  | place _ => Button.released
  | press buttons => buttons
  | call c | access _ c => c.given w
  | _ => w

/-- The device has the buttons of a word, as far as directions allow, and has
seen no pad with opposite directions. -/
structure Holds (w : UInt32) (d : Peripheral) : Prop where
  buttons : d.core.buttons = if d.hasDpad then constrainDpad w else w
  seen : ∀ s, some s ∈ d.seen → s.Proper

theorem hasDpad_of_isPad {d : Peripheral} (h : d.kind.IsPad) :
    d.hasDpad = true := by
  rcases h with h | h | h
  · exact hasDpad_eq
      (show d.kind = Device.kind (⟨d.core, .twoButton⟩ : Peripheral) from h)
  · exact hasDpad_eq
      (show d.kind = Device.kind (⟨d.core, .threeButton⟩ : Peripheral) from h)
  · exact hasDpad_eq
      (show d.kind = Device.kind (⟨d.core, .sixButton⟩ : Peripheral) from h)

/-- A new device holds no button. -/
theorem holds_create (kind : Kind) :
    Holds Button.released (Device.create (.ofKind kind)) where
  buttons := by cases kind <;> decide
  seen := by
    intro s hs
    exact nomatch seen_create kind _ hs

namespace Holds

variable {w : UInt32} {d : Peripheral}

/-- What a pad holds has no opposites. -/
theorem unopposed (h : Holds w d) (hpad : d.kind.IsPad) :
    Unopposed d.core.buttons := by
  rw [h.buttons, if_pos (hasDpad_of_isPad hpad)]
  exact unopposed_constrainDpad w

/-- A device that looks the same to a multitap holds the same word. -/
theorem buttons_of_chained {d' : Peripheral} (h : Holds w d)
    (hsame : d'.outline.toChained = d.outline.toChained) :
    d'.core.buttons = if d'.hasDpad then constrainDpad w else w := by
  rw [hasDpad_eq (congrArg Chained.kind hsame)]
  exact (congrArg Chained.buttons hsame).trans h.buttons

private theorem buttons_call {d' : Peripheral} (h : Holds w d)
    (hsame : d'.outline.toChained = d.outline.toChained) {c : Call}
    (hc : ∀ buttons, c ≠ .update buttons) :
    (c.apply d').core.buttons
      = if (c.apply d').hasDpad then constrainDpad (c.given w)
        else c.given w := by
  have hcall := outline_call c d'
  cases c with
  | update buttons => exact absurd rfl (hc buttons)
  | reset =>
      show Button.released = ite _
        (constrainDpad Button.released) Button.released
      split <;> rfl
  | scanline | noteRead | writeControl v | writeData v | moveTo x y | setPin58 v
  | refresh =>
      exact h.buttons_of_chained
        ((congrArg Outline.toChained hcall).trans hsame)

/-- An act gives a device its word, and what it shows was proper before. -/
theorem act (h : Holds w d) {a : Act} (ha : a.Proper) :
    Holds (a.given w) (a.apply d) where
  buttons := by
    have hsee : ∀ states, (d.see states).outline.toChained
        = d.outline.toChained :=
      fun states => congrArg Outline.toChained (d.outline_see states)
    cases a with
    | place kind => exact (holds_create kind).buttons
    | link port sub states =>
        have hlink :=
          ((d.link port sub).outline_see states).trans (d.outline_link port sub)
        have hsame := congrArg Outline.toChained hlink
        exact h.buttons_of_chained hsame
    | see states => exact h.buttons_of_chained (hsee states)
    | access states c =>
        exact h.buttons_call (hsee states) fun b hc =>
          ha.calls b (congrArg some hc)
    | press buttons => exact rfl
    | call c =>
        exact h.buttons_call rfl fun b hc => ha.calls b (congrArg some hc)
    | sendSerial v | setSerial v | restart => exact h.buttons
  seen := by
    intro s hs
    rcases mem_seen_act hs with hold | hshown
    · exact h.seen s hold
    · exact ha.shows s hshown

/-- Proper acts, one after another: the last given word is what the device
holds. -/
theorem acted (h : Holds w d) {acts : List Act} (hacts : ∀ a ∈ acts, a.Proper) :
    Holds (acts.foldl Act.given w) (d.acted acts) := by
  induction acts generalizing w d with
  | nil => exact h
  | cons a rest ih =>
      obtain ⟨ha, hrest⟩ := List.forall_mem_cons.1 hacts
      exact ih (h.act ha) hrest

end Holds

end Device

namespace Hub

/-- The word that device `id` was given last, behind an event. -/
def given (hub : Hub) (id : Nat) (w : UInt32) : Event → UInt32
  | .operation (.updateButtons target buttons) =>
      if target = id then buttons else w
  | .operation (.updatePort port buttons) =>
      if hub.portDevice port = id then buttons else w
  | .operation (.replace target _) => if target = id then Button.released else w
  | .operation (.add _) | .operation (.connectNew _ _) =>
    if hub.deviceCount = id then Button.released else w
  | .operation .reset => Button.released
  | .device target .reset => if target = id then Button.released else w
  | _ => w

/-- The word that device `id` was given last. -/
def lastGiven (hub : Hub) (id : Nat) (w : UInt32) : List Event → UInt32
  | [] => w
  | e :: rest => (hub.next e).lastGiven id (hub.given id w e) rest

private theorem foldl_given_only (a : Act) (target id : Nat) (w : UInt32) :
    (a.only target id).foldl Act.given w
      = if target = id then a.given w else w := by
  unfold Act.only
  split <;> rfl

/-- The acts of an event give what the event gives. -/
theorem foldl_given {hub : Hub} {id : Nat} (hid : id < hub.deviceCount)
    (w : UInt32) {e : Event} (he : ¬e.PressesDirectly) :
    (hub.layout.eventActs id e).foldl Act.given w = hub.given id w e := by
  have hkept : ∀ {a : Act} (target : Nat), a.given w = w →
      (a.only target id).foldl Act.given w = w := fun target ha => by
    rw [foldl_given_only, ha, ite_self]
  have hold : hub.deviceCount ≠ id := Nat.ne_of_gt hid
  cases e with
  | setVersion v => rfl
  | device target c =>
      refine (foldl_given_only _ target id w).trans ?_
      cases c with
      | update buttons => exact absurd trivial he
      | reset => rfl
      | _ => exact ite_self w
  | operation op =>
      cases op with
      | add kind | connectNew port kind => exact (if_neg hold).symm
      | connect port target | readControl port => rfl
      | replace target kind | updateButtons target buttons
      | updatePort port buttons =>
          exact foldl_given_only _ _ id w
      | attach tap port sub =>
          show (ite _ _ _ : List Act).foldl Act.given w = w
          split
          · rfl
          · exact hkept _ rfl
      | moveTo target x y | readData port | writeData port v
      | writeControl port v =>
          exact hkept _ rfl
      | scanline | resetDevices => rfl
      | reset =>
          -- the looks that follow the reset give nothing
          show List.foldl Act.given Button.released (Port.all.flatMap _)
            = Button.released
          refine List.foldlRecOn (motive := (· = Button.released)) _ _ rfl
            fun w hw a ha => ?_
          obtain ⟨port, -, hlook⟩ := List.mem_flatMap.1 ha
          have hkeeps : a.given w = w :=
            Act.forall_only (P := fun a => a.given w = w) (fun _ => rfl) a hlook
          exact hkeeps.trans hw
      | readRegister index =>
          simp only [Layout.eventActs, Layout.acts]
          split
          · exact hkept _ rfl
          · rfl
      | writeRegister index v =>
          simp only [Layout.eventActs, Layout.acts]
          split
          · exact hkept _ rfl
          · exact hkept _ rfl
          · exact hkept _ rfl
          · exact hkept _ rfl
          · rfl

/-- A device that is new has been given nothing yet. -/
theorem given_new {hub : Hub} {e : Event} {kind : Kind}
    (h : e.added = some kind) (w : UInt32) :
    hub.given hub.deviceCount w e = Button.released := by
  cases e with
  | setVersion v | device target c => cases h
  | operation op =>
      cases op with
      | add kind | connectNew port kind => exact if_pos rfl
      | _ => cases h

/-- Devices that hold what was given make a proper layout. -/
private theorem proper_layout {hub : Hub} {words : Nat → UInt32}
    (h : ∀ id d, hub.device? id = some d → Device.Holds (words id) d) :
    hub.layout.Proper := by
  intro id x hx hpad
  rw [devices_layout] at hx
  obtain ⟨d, hd, rfl⟩ := Option.map_eq_some_iff.1 hx
  exact (h id d hd).unopposed hpad

/-- Every device has what it was given last. -/
theorem holds_events {hub : Hub} {words : Nat → UInt32}
    (h : ∀ id d, hub.device? id = some d → Device.Holds (words id) d)
    {events : List Event} (hevents : ∀ e ∈ events, ¬e.PressesDirectly) :
    ∀ id d, (events.foldl next hub).device? id = some d →
      Device.Holds (hub.lastGiven id (words id) events) d := by
  induction events generalizing hub words with
  | nil => exact h
  | cons e rest ih =>
      obtain ⟨he, hrest⟩ := List.forall_mem_cons.1 hevents
      have hnext : ∀ id d, (hub.next e).device? id = some d →
          Device.Holds (hub.given id (words id) e) d := by
        refine forall_device_next (fun kind hadded => ?_)
          (fun id d hd hold => ?_) h
        · rw [given_new hadded]
          exact Device.holds_create kind
        · have hid : id < hub.deviceCount :=
            lt_deviceCount_iff.2 (Option.isSome_of_mem hd)
          rw [← foldl_given hid (words id) he]
          exact hold.acted ((proper_layout h).eventActs id he)
      exact fun id d hd => ih hnext hrest id d hd

end Hub

end ConsoleBoard.Controller
