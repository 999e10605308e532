/-
Where the console sees directions.

Directions reach the console in three ways: a pad shows them on D0 to D3 in
some of its phases, a three-button pad shows two of them while TH is low, and a
multitap sends them as the first nibble of a pad's buttons. Each of these
places is a line that carries a button of some word (`Carries`). A device is
at rest whenever the console looks at it, so on a line that the console does
not drive it reads that very button (`Carries.isHigh`), and the words are
those of pads and of pictures of pads, which have no opposite directions.

# The three places

`Carries` lists them, each with the word whose button is on the line. That the
word has no opposites is known for pads from what they hold and for a multitap
from what it has seen; that the line shows the button is the answer of the
protocol in that place (`dataLines_pad`, `isHigh_answer_buttons`). A device
that is no pad and no multitap carries no directions.
-/
import ConsoleBoard.Proofs.Controller.Given
import ConsoleBoard.Proofs.Controller.Rest
import ConsoleBoard.Proofs.Controller.SixButton
import ConsoleBoard.Proofs.Controller.Wiring

namespace ConsoleBoard.Controller

-- ================================================================ the pads

/-- What a pad shows on D5 to D0. -/
def Device.padLayout (d : Peripheral) : Option (List Shown) :=
  match d.own with
  | .twoButton => some (Pad.layout 0 true)
  | .threeButton => some (Pad.layout 0 (d.core.level .th))
  | .sixButton => some (Pad.layout d.core.counter (d.core.level .th))
  | _ => none

/-- Only pads have a layout of pad buttons. -/
theorem Device.isPad_of_padLayout {d : Peripheral} {layout : List Shown}
    (h : d.padLayout = some layout) : d.kind.IsPad := by
  obtain ⟨core, own⟩ := d
  cases own with
  | twoButton => exact .inl rfl
  | threeButton => exact .inr (.inl rfl)
  | sixButton => exact .inr (.inr rfl)
  | none | paddle | coleco | teamPlayer tap => cases h

/-- A pad drives its layout. -/
theorem AtRest.dataLines_pad {d : Peripheral} (h : AtRest d)
    {layout : List Shown} (hlayout : d.padLayout = some layout) :
    dataLines.map (·.isHigh d.core.deviceData)
      = layout.map (·.level d.core.buttons) := by
  have hdata : d.core.deviceData = (d.own.drive d.core).data :=
    (congrArg Drive.data h.answer).symm
  obtain ⟨core, own⟩ := d
  rw [hdata]
  cases own with
  | twoButton =>
      cases hlayout
      exact dataLines_sixButton 0 core.buttons true
  | threeButton =>
      cases hlayout
      have hth : core.line .th = core.level .th := h.settled.line .th
      show dataLines.map
        (·.isHigh (Pad.threeButton core.buttons (core.line .th))) = _
      rw [hth]
      exact dataLines_sixButton 0 core.buttons (core.level .th)
  | sixButton =>
      cases hlayout
      show dataLines.map (·.isHigh (Pad.sixButtonDrive core).data) = _
      rw [drive_of_settled h.settled]
      exact dataLines_sixButton core.counter core.buttons (core.level .th)
  | none | paddle | coleco | teamPlayer tap => cases hlayout

-- ============================================================ the multitap

/-- The lines of a nibble of directions. -/
def directionLines : List (Pin × UInt32) :=
  [(.right, Button.right), (.left, Button.left), (.down, Button.down),
    (.up, Button.up)]

namespace TeamPlayer

/-- The place of the first data nibble of a virtual port, with the ports before
it. -/
def firstPlace (before : List (Option Chained)) : Nat :=
  header.length + portCount + (before.map dataCount).sum

/-- Only pads send buttons. -/
theorem isPad_of_dataCount {s : Chained} (h : 0 < dataCount (some s)) :
    s.kind.IsPad := by
  unfold dataCount at h
  split at h
  next hkind => exact .inr (.inl (Option.some.inj hkind))
  next hkind => exact .inr (.inr (Option.some.inj hkind))
  next => cases h

/-- The first data nibble of a chained pad holds its directions. -/
private theorem dataNibble_first {s : Chained} (h : 0 < dataCount (some s))
    (before after : List (Option Chained)) :
    dataNibble (before ++ some s :: after) (before.map dataCount).sum
      = buttonNibble (some s) 0 := by
  induction before with
  | nil => exact if_pos h
  | cons state rest ih =>
      rw [List.map_cons, List.sum_cons, List.cons_append, dataNibble,
        if_neg (Nat.not_lt.2 (Nat.le_add_right _ _)), Nat.add_sub_cancel_left]
      exact ih

theorem nibble_first {tap : TeamPlayer} {before after : List (Option Chained)}
    {s : Chained} (hseen : tap.seen.toList = before ++ some s :: after)
    (h : 0 < dataCount (some s)) :
    tap.nibble (firstPlace before) = buttonNibble (some s) 0 := by
  have hplace : firstPlace before = 7 + (before.map dataCount).sum := rfl
  have hport : 3 + portCount = 7 := rfl
  unfold nibble
  rw [hplace, if_neg (by omega), if_neg (by omega), hseen,
    show 7 + (before.map dataCount).sum - 3 - portCount
      = (before.map dataCount).sum by omega]
  exact dataNibble_first h before after

/-- The first nibble of buttons has the directions on their lines. -/
theorem isHigh_answer_buttons (tr : Bool) (s : Chained) :
    ∀ x ∈ directionLines, x.1.isHigh (answer tr (buttonNibble (some s) 0))
      = (Shown.button x.2).level s.buttons := by
  -- the four lines are the four low bits, so one bit of each side is compared
  have hbit : ∀ (pin : Pin) (mask : UInt32) (i : Fin 4), pin.mask.toNat
      = 2 ^ i.val →
      mask.toNat = 2 ^ i.val → pin.isHigh (answer tr (buttonNibble (some s) 0))
        = (Shown.button mask).level s.buttons := by
    intro pin mask i hpin hmask
    have hlt : buttonNibble (some s) 0 < 16 := buttonNibble_lt (some s) 0
    have hlow : ∀ i : Fin 4, BitVec.getLsbD 0x0F#8 i.val = true := by decide
    have hmasked :=
      congrArg (fun v => v.toBitVec.getLsbD i.val) (answer_eq tr hlt).1
    simp only [UInt8.toBitVec_and, BitVec.getLsbD_and,
      UInt8.toBitVec_ofNat, hlow, Bool.and_true] at hmasked
    have hnibble : buttonNibble (some s) 0
        = UInt8.ofNat (s.buttons.toNat >>> 0 % 2 ^ 4) := rfl
    have htestBit : ∀ v : UInt8, v.toBitVec.getLsbD i.val
        = v.toNat.testBit i.val := fun _ => rfl
    rw [pin.isHigh_eq hpin, Shown.level_button _ hmask, hmasked,
      hnibble, htestBit]
    have hsmall : s.buttons.toNat % 2 ^ 4 < 2 ^ 8 :=
      Nat.lt_of_lt_of_le (Nat.mod_lt _ (by decide)) (by decide)
    rw [Nat.shiftRight_zero, UInt8.toNat_ofNat', Nat.mod_eq_of_lt hsmall,
      Nat.testBit_mod_two_pow, decide_eq_true i.isLt, Bool.true_and]
    rfl
  unfold directionLines
  simp only [List.forall_mem_cons]
  exact ⟨hbit .right _ 3 rfl rfl, hbit .left _ 2 rfl rfl,
    hbit .down _ 1 rfl rfl, hbit .up _ 0 rfl rfl, nofun⟩

end TeamPlayer

-- =============================================================== the lines

/-- A button of some word that stands on a line of the device: a pad's own on
the lines of its phase, and the directions of a pad behind a multitap at the
place of its first nibble. -/
inductive Carries (d : Peripheral) :
    (word : UInt32) → Pin → (mask : UInt32) → Prop
  | pad {layout : List Shown} {pin : Pin} {mask : UInt32}
      (hlayout : d.padLayout = some layout)
      (hline : (pin, .button mask) ∈ dataLines.zip layout) : Carries d
        d.core.buttons pin mask
  | tap {tap : TeamPlayer} {before after : List (Option Chained)} {s : Chained}
      {pin : Pin}
      {mask : UInt32} (hown : d.own = .teamPlayer tap)
        (hlow : d.core.level .th = false)
      (hseen : tap.seen.toList = before ++ some s :: after)
      (hsends : 0 < TeamPlayer.dataCount (some s))
      (hplace : d.core.counter = TeamPlayer.firstPlace before)
      (hline : (pin, mask) ∈ directionLines) : Carries d s.buttons pin mask

/-- Paired members of two lists agree where the lists do. -/
private theorem eq_of_mem_zip {α β γ : Type} {f : α → γ} {g : β → γ}
    {as : List α} {bs : List β} (h : as.map f = bs.map g) {a : α} {b : β}
    (hmem : (a, b) ∈ as.zip bs) : f a = g b := by
  induction as generalizing bs with
  | nil => cases hmem
  | cons a' as ih =>
      cases bs with
      | nil => cases hmem
      | cons b' bs =>
          obtain ⟨hhead, htail⟩ := List.cons.inj h
          rcases List.mem_cons.1 hmem with heq | hrest
          · cases heq
            exact hhead
          · exact ih htail hrest

namespace Carries

variable {d : Peripheral} {word : UInt32} {pin : Pin} {mask : UInt32}

private theorem mem_dataLines (h : Carries d word pin mask) :
    pin ∈ dataLines := by
  cases h with
  | pad hlayout hline => exact (List.of_mem_zip hline).1
  | tap hown hlow hseen hsends hplace hline =>
      simp only [directionLines, List.mem_cons, Prod.mk.injEq, List.not_mem_nil,
        or_false] at hline
      rcases hline with ⟨rfl, -⟩ | ⟨rfl, -⟩ | ⟨rfl, -⟩ | ⟨rfl, -⟩
        <;> simp [dataLines]

/-- The device drives the button. -/
theorem isHigh_data (h : Carries d word pin mask) (hrest : AtRest d) :
    pin.isHigh d.core.deviceData = (word &&& mask != 0) := by
  cases h with
  | pad hlayout hline => exact eq_of_mem_zip (hrest.dataLines_pad hlayout) hline
  | @tap tap before _ s _ _ hown hlow hseen hsends hplace hline =>
      have hline' : d.core.line .th = false :=
        (hrest.settled.line .th).trans hlow
      have hanswer : tap.drive d.core
          = ⟨d.core.counter, d.core.scanlines, d.core.deviceData⟩ := by
        have hown' := hrest.answer
        rw [hown] at hown'
        exact hown'
      rw [tap.drive_low hline'] at hanswer
      have hcounter : TeamPlayer.place d.core = d.core.counter :=
        congrArg Drive.counter hanswer
      have hdata : TeamPlayer.answer (d.core.line .tr)
          (tap.nibble (TeamPlayer.place d.core))
          = d.core.deviceData := congrArg Drive.data hanswer
      rw [← hdata, hcounter, hplace, TeamPlayer.nibble_first hseen hsends]
      exact TeamPlayer.isHigh_answer_buttons (d.core.line .tr) s _ hline

/-- Where the console drives nothing it reads the button. -/
theorem isHigh_read (h : Carries d word pin mask) (hrest : AtRest d)
    (hinput : pin.isHigh d.core.control = false) :
    pin.isHigh d.read = (word &&& mask != 0) := by
  have hmask : ∀ pin ∈ dataLines, ∃ i : Fin 7, pin.mask.toNat
      = 2 ^ i.val := by decide
  obtain ⟨i, hi⟩ := hmask pin h.mem_dataLines
  have hread : d.read = d.core.tristate d.core.deviceData :=
    hrest.settled.output
  rw [hread, d.core.isHigh_tristate _ hi, hinput]
  exact h.isHigh_data hrest

/-- The word is a pad's, or of a picture of a pad. -/
theorem unopposed (h : Carries d word pin mask) {w : UInt32}
    (hholds : Device.Holds w d) :
    Unopposed word := by
  cases h with
  | pad hlayout hline =>
      exact hholds.unopposed (Device.isPad_of_padLayout hlayout)
  | tap hown hlow hseen hsends hplace hline =>
      refine hholds.seen _ ?_ (TeamPlayer.isPad_of_dataCount hsends)
      unfold Device.seen
      rw [hown]
      show _ ∈ Vector.toList _
      rw [hseen]
      exact List.mem_append_right _ List.mem_cons_self

end Carries

-- ================================================================= the hub

/-- What the console sees of the directions of a device: on lines that it does
not drive, the buttons that stand there, and never two opposite ones. -/
structure ShowsDirections (d : Peripheral) : Prop where
  shows : ∀ {word pin mask}, Carries d word pin mask →
      pin.isHigh d.core.control = false →
    pin.isHigh d.read = (word &&& mask != 0)
  excludes : ∀ {word p q m n}, Carries d word p m → Carries d word q n →
    m ||| n ∈ Button.opposites → p.isHigh d.core.control = false →
    q.isHigh d.core.control = false → p.isHigh d.read = true
      ∨ q.isHigh d.read = true

theorem showsDirections {d : Peripheral} {w : UInt32} (hrest : AtRest d)
    (hholds : Device.Holds w d) : ShowsDirections d where
  shows hcarries hinput := hcarries.isHigh_read hrest hinput
  excludes {word p q m n} hp hq hpair hinput hinput' := by
    have hreleased : word &&& (m ||| n) ≠ 0 := hp.unopposed hholds _ hpair
    rw [hp.isHigh_read hrest hinput, hq.isHigh_read hrest hinput', bne_iff_ne,
      bne_iff_ne]
    by_contra hlow
    obtain ⟨hm, hn⟩ := not_or.1 hlow
    rw [UInt32.and_comm, or_and_distrib, UInt32.and_comm m, UInt32.and_comm n,
      not_not.1 hm, not_not.1 hn] at hreleased
    exact hreleased rfl

namespace Hub

/-- Whatever has happened to a hub, no pad in it has two opposite directions
pressed. Of the directions that its host gave last it has all others, and the
buttons that are no directions as they were given; a device that is new or
reset has none. So on lines that the console does not drive it never sees two
opposite directions of a pad low at once, whether a pad shows them itself or a
multitap sends them, and what it reads of them are the buttons. -/
theorem no_opposites_shown (events : List Event)
    (hevents : ∀ e ∈ events, ¬e.PressesDirectly) :
    let hub := events.foldl next empty
    (∀ id d, hub.device? id = some d → d.kind.IsPad →
      let given := empty.lastGiven id Button.released events
      Unopposed d.core.buttons
        ∧ (∀ pair ∈ Button.opposites, given &&& pair ≠ 0 →
            d.core.buttons &&& pair = given &&& pair)
        ∧ ∀ mask, (∀ pair ∈ Button.opposites, pair &&& mask = 0) →
            d.core.buttons &&& mask = given &&& mask)
      ∧ (∀ id d, hub.device? id = some d → ShowsDirections d)
      ∧ ∀ port, ∃ d, (hub.readData port).2.device?
        (hub.portDevice port) = some d
          ∧ (hub.readData port).1 = d.read ∧ ShowsDirections d := by
  have hempty : ∀ id d, empty.device? id = some d →
      Device.Holds Button.released d := by
    intro id d hd
    obtain rfl := device?_empty hd
    exact Device.holds_create .none
  have hshows : ∀ {events : List Event},
      (∀ e ∈ events, ¬e.PressesDirectly) → ∀ id d,
      (events.foldl next empty).device? id = some d → ShowsDirections d :=
    fun hevents id d hd => showsDirections
      (atRest_events _ (fun _ _ => atRest_empty) id d hd)
        (holds_events hempty hevents id d hd)
  intro hub
  refine ⟨fun id d hd hpad => ?_, hshows hevents, fun port => ?_⟩
  · have hholds := holds_events hempty hevents id d hd
    have hbuttons := hholds.buttons
    rw [if_pos (Device.hasDpad_of_isPad hpad)] at hbuttons
    refine ⟨hholds.unopposed hpad, fun pair hpair hgiven => ?_,
      fun mask hmask => ?_⟩
    · rw [hbuttons, constrainDpad_and_pair _ pair hpair, if_neg hgiven]
    · rw [hbuttons, constrainDpad_and hmask]
  · obtain ⟨d, hd, hread⟩ := (wired_events wired_empty events).read_eq port
    -- a read is an event itself, so what it leaves behind is reached as well
    have hnext : (events ++ [Event.operation (.readData port)]).foldl next empty
        = (hub.readData port).2 := by
      rw [List.foldl_append]
      rfl
    refine ⟨d, hd, congrArg Prod.fst hread, hshows ?_ _ d (hnext ▸ hd)⟩
    intro e he
    rcases List.mem_append.1 he with hold | hnew
    · exact hevents e hold
    · obtain rfl := List.mem_singleton.1 hnew
      exact id

/-- A three-button pad behind a multitap, with UP, DOWN and LEFT pressed: the
seventh change of TR brings its directions, and of these only LEFT is low. -/
theorem no_opposites_shown_tap :
    let word := Button.pressed (Button.up ||| Button.down ||| Button.left)
    let setup : List Operation :=
      [.connectNew .one .teamPlayer, .add .threeButton, .attach 3 0 (some 4),
        .updateButtons 4 word, .writeControl .one 0x60, .writeData .one 0x60]
    let clock : List Operation := [.writeData .one 0x20, .writeData .one 0x00]
    let events : List Event :=
      (setup ++ clock ++ clock ++ clock ++ clock).map .operation
    let hub := events.foldl next empty
    (∃ pad, hub.device? 4 = some pad ∧ Unopposed pad.core.buttons
        ∧ pad.core.buttons &&& (Button.left ||| Button.right) = Button.right)
      ∧ ∃ d, hub.device? 3 = some d ∧ Pin.left.isHigh d.read = false
        ∧ (Pin.up.isHigh d.read = true ∨ Pin.down.isHigh d.read = true) := by
  intro word setup clock events hub
  have hevents : ∀ e ∈ events, ¬e.PressesDirectly := by
    intro e he
    obtain ⟨op, -, rfl⟩ := List.mem_map.1 he
    exact id
  obtain ⟨hpads, hdevices, -⟩ := no_opposites_shown events hevents
  refine ⟨?_, ?_⟩
  · have hpad : (hub.device? 4).any (fun d => d.kind = .threeButton)
        = true := by decide +kernel
    obtain ⟨pad, hd, hkind⟩ := (Option.any_eq_true _ _).1 hpad
    obtain ⟨hunopposed, hkept, -⟩ :=
      hpads 4 pad hd (.inr (.inl (of_decide_eq_true hkind)))
    have hgiven : empty.lastGiven 4 Button.released events
        &&& (Button.left ||| Button.right)
        = Button.right := by decide +kernel
    refine ⟨pad, hd, hunopposed, (hkept _ (by decide) ?_).trans hgiven⟩
    rw [hgiven]
    decide
  · have htap : (hub.device? 3).any
        (fun d => d.kind = .teamPlayer ∧ d.core.level .th = false
        ∧ d.core.counter = 7 ∧ d.core.control = 0x60
        ∧ d.seen = [] ++ some ⟨.threeButton, constrainDpad word⟩
          :: [none, none, none]) = true := by
      decide +kernel
    obtain ⟨d, hd, hshown⟩ := (Option.any_eq_true _ _).1 htap
    obtain ⟨hkind, hlow, hcounter, hcontrol, hseen⟩ := of_decide_eq_true hshown
    obtain ⟨tap, hown⟩ := Model.eq_teamPlayer hkind
    have hseen' : tap.seen.toList
        = [] ++ some ⟨.threeButton, constrainDpad word⟩
          :: [none, none, none] := by
      rw [← hseen, Device.seen, hown]
    have hcarries : ∀ x ∈ directionLines,
        Carries d (constrainDpad word) x.1 x.2 :=
      fun _ hline => .tap hown hlow hseen' (by decide) hcounter hline
    have hinput : ∀ x ∈ directionLines, x.1.isHigh d.core.control = false := by
      rw [hcontrol]
      decide
    have hleft : (Pin.left, Button.left) ∈ directionLines := by
      simp [directionLines]
    have hdown : (Pin.down, Button.down) ∈ directionLines := by
      simp [directionLines]
    have hup : (Pin.up, Button.up) ∈ directionLines := by simp [directionLines]
    have hshows := hdevices 3 d hd
    exact ⟨d, hd,
      (hshows.shows (hcarries _ hleft) (hinput _ hleft)).trans (by decide),
      hshows.excludes (hcarries _ hup) (hcarries _ hdown) (by decide)
        (hinput _ hup) (hinput _ hdown)⟩

end Hub

end ConsoleBoard.Controller
