/-
Windows and the banks that name them.

A bank names the windows that reach over it by their places in the list of all
windows (`mem_meeting`), and installing a window moves the places of others, so
the banks are filled in again from the whole list. After any calls (`Sound`) the
banks are those of the windows, ranges are not inverted, no two windows serve
one address, and the places of their bytes are machine words.

Which windows are there is settled call by call (`mem_after`): a call adds the
window that it asks for and takes away those in its way, so a window stays
until the first call that is (`mem_afterAll`).
-/
import ConsoleBoard.Memory.Flat
import ConsoleBoard.Z80.FetchMap
import Mathlib.Data.List.Pairwise

namespace ConsoleBoard.Z80

variable {β : Type}

-- ================================================================== ranges

namespace FetchWindow

variable {w : FetchWindow β}

/-- The addresses of a window, as numbers. -/
theorem contains_iff {address : UInt16} :
    w.contains address = true
      ↔ w.low.toNat ≤ address.toNat ∧ address.toNat ≤ w.high.toNat := by
  unfold contains
  rw [Bool.and_eq_true, decide_eq_true_eq, decide_eq_true_eq,
    UInt16.le_iff_toNat_le, UInt16.le_iff_toNat_le]

/-- Two ranges overlap if neither lies before the other. -/
private theorem overlaps_iff {low high : UInt16} :
    w.overlaps low high = true
      ↔ w.low.toNat ≤ high.toNat ∧ low.toNat ≤ w.high.toNat := by
  unfold overlaps
  rw [Bool.and_eq_true, decide_eq_true_eq, decide_eq_true_eq,
    UInt16.le_iff_toNat_le, UInt16.le_iff_toNat_le]

/-- The windows serve an address both. -/
def Clash (w w' : FetchWindow β) : Prop :=
  ∃ address, w.contains address = true ∧ w'.contains address = true

/-- Ranges that overlap share the larger of their low ends. -/
theorem overlaps_iff_clash {w' : FetchWindow β} (h : w.low ≤ w.high)
    (h' : w'.low ≤ w'.high) :
    w.overlaps w'.low w'.high = true ↔ w.Clash w' := by
  rw [UInt16.le_iff_toNat_le] at h h'
  rw [overlaps_iff]
  constructor
  · intro hover
    by_cases hlow : w.low.toNat ≤ w'.low.toNat
    · exact ⟨w'.low, contains_iff.2 ⟨hlow, hover.2⟩,
        contains_iff.2 ⟨Nat.le_refl _, h'⟩⟩
    · exact ⟨w.low, contains_iff.2 ⟨Nat.le_refl _, h⟩,
        contains_iff.2 ⟨by omega, hover.1⟩⟩
  · rintro ⟨address, hw, hw'⟩
    rw [contains_iff] at hw hw'
    omega

/-- The window serves an address of the bank. -/
def Meets (w : FetchWindow β) (bank : Fin 16) : Prop :=
  ∃ address, w.contains address = true ∧ bankOf address = bank

/-- The address of a window lies between its banks. -/
theorem bank_le_of_contains {address : UInt16} (h : w.contains address = true) :
    bankOf w.low ≤ bankOf address ∧ bankOf address ≤ bankOf w.high := by
  rw [contains_iff] at h
  exact ⟨Nat.div_le_div_right h.1, Nat.div_le_div_right h.2⟩

/-- A window meets the banks from that of its low end to that of its high
end. -/
theorem meets_iff (h : w.low ≤ w.high) (bank : Fin 16) :
    w.Meets bank ↔ bankOf w.low ≤ bank ∧ bank ≤ bankOf w.high := by
  rw [UInt16.le_iff_toNat_le] at h
  constructor
  · rintro ⟨address, hin, rfl⟩
    exact bank_le_of_contains hin
  · rintro ⟨hlow, hhigh⟩
    have hlow : w.low.toNat / 4096 ≤ bank.val := hlow
    have hhigh : bank.val ≤ w.high.toNat / 4096 := hhigh
    -- the low end of the window, or of the bank if that comes later
    have hfit : max w.low.toNat (4096 * bank.val) < 65536 := by
      have := w.low.toNat_lt
      omega
    have hplace : (UInt16.ofNat (max w.low.toNat (4096 * bank.val))).toNat
        = max w.low.toNat (4096 * bank.val) := UInt16.toNat_ofNat_of_lt hfit
    refine ⟨UInt16.ofNat (max w.low.toNat (4096 * bank.val)), ?_, ?_⟩
    · rw [contains_iff, hplace]
      omega
    · apply Fin.ext
      show (UInt16.ofNat _).toNat / 4096 = bank.val
      rw [hplace]
      omega

end FetchWindow

-- =================================================================== banks

namespace FetchMap

/-- A bank names the windows that reach over it, by their places from
`start`. -/
theorem mem_meeting {bank : Fin 16} {windows : List (FetchWindow β)}
    {start i : Nat} :
    i ∈ meeting bank start windows
      ↔ ∃ k w, i = start + k ∧ windows[k]? = some w
        ∧ bankOf w.low ≤ bank ∧ bank ≤ bankOf w.high := by
  -- over the windows; places are counted from `start`, so it moves with them
  induction windows generalizing start with
  | nil => exact ⟨nofun, fun ⟨_, _, _, hw, _⟩ => nomatch hw⟩
  | cons first rest ih =>
      have hlater : i ∈ meeting bank (start + 1) rest
          ↔ ∃ k w, i = start + (k + 1) ∧ rest[k]? = some w
            ∧ bankOf w.low ≤ bank ∧ bank ≤ bankOf w.high := by
        rw [ih]
        simp only [Nat.add_assoc, Nat.add_comm 1]
      unfold meeting
      split
      next hmeets =>
        rw [List.mem_cons, hlater]
        constructor
        · rintro (rfl | ⟨k, w, hi, hw⟩)
          · exact ⟨0, first, rfl, rfl, hmeets⟩
          · exact ⟨k + 1, w, hi, hw⟩
        · rintro ⟨k, w, hi, hw, hbank⟩
          cases k with
          | zero => exact .inl hi
          | succ k => exact .inr ⟨k, w, hi, hw, hbank⟩
      next hmisses =>
        rw [hlater]
        constructor
        · rintro ⟨k, w, hi, hw⟩
          exact ⟨k + 1, w, hi, hw⟩
        · rintro ⟨k, w, hi, hw, hbank⟩
          cases k with
          | zero =>
              cases hw
              exact absurd hbank hmisses
          | succ k => exact ⟨k, w, hi, hw, hbank⟩

/-- In order, and each once. -/
theorem sorted_meeting (bank : Fin 16) (start : Nat)
    (windows : List (FetchWindow β)) :
    (meeting bank start windows).Pairwise (· < ·) := by
  induction windows generalizing start with
  | nil => exact .nil
  | cons first rest ih =>
      unfold meeting
      split
      · refine .cons (fun i hi => ?_) (ih (start + 1))
        obtain ⟨k, -, hk, -⟩ := mem_meeting.1 hi
        omega
      · exact ih (start + 1)

/-- The meeting windows of two parts, one after the other. -/
theorem meeting_append (bank : Fin 16) (start : Nat)
    (front back : List (FetchWindow β)) :
    meeting bank start (front ++ back)
      = meeting bank start front ++ meeting bank
        (start + front.length) back := by
  induction front generalizing start with
  | nil => rfl
  | cons first rest ih =>
      have hlength : start + 1 + rest.length
          = start + (first :: rest).length := by
        rw [List.length_cons]
        omega
      rw [List.cons_append, meeting, meeting, ih (start + 1), hlength]
      split <;> rfl

/-- The bank of an address leads to the first window that serves it. -/
theorem findSome?_meeting {address : UInt16}
    (front back : List (FetchWindow β)) :
    ((meeting (bankOf address) front.length back).findSome? fun i =>
        ((front ++ back)[i]?).filter fun w => w.contains address)
      = back.find? fun w => w.contains address := by
  induction back generalizing front with
  | nil => rfl
  | cons first rest ih =>
      have hsplit : front ++ first :: rest
          = (front ++ [first]) ++ rest := by simp
      have hlength : front.length + 1 = (front ++ [first]).length := by simp
      have hplace : (front ++ first :: rest)[front.length]?
          = some first := by simp
      have hrest := ih (front ++ [first])
      rw [← hsplit, ← hlength] at hrest
      rw [List.find?_cons, meeting]
      cases hin : first.contains address with
      | true =>
          rw [if_pos (FetchWindow.bank_le_of_contains hin),
            List.findSome?_cons, hplace, Option.filter_some, if_pos hin]
      | false =>
          split
          next =>
            rw [List.findSome?_cons, hplace, Option.filter_some,
              if_neg (by rw [hin]; decide)]
            exact hrest
          next => exact hrest

-- =============================================================== the calls

/-- A call about windows. The buffer of a window holds `available` bytes when it
is installed; sizes are machine words. -/
inductive Call (β : Type)
  | install (low high : UInt16) (buffer : β) (available offset : USize)
  | clear

/-- The window that a call asks for, if its range is not inverted and its buffer
has a byte for every address. -/
def Call.window? : Call β → Option (FetchWindow β)
  | install low high buffer available offset =>
      if low ≤ high ∧ offset.toNat + FetchWindow.span low high
        ≤ available.toNat then
        some ⟨low, high, buffer, offset.toNat⟩
      else none
  | clear => none

def Call.perform (map : FetchMap β) : Call β → Except FetchError (FetchMap β)
  | install low high buffer available offset =>
      map.install low high buffer available.toNat offset.toNat
  | clear => .ok .empty

/-- The map behind a call. A refused one leaves it as it is. -/
def after (map : FetchMap β) (call : Call β) : FetchMap β :=
  match call.perform map with
  | .ok map => map
  | .error _ => map

def afterAll (map : FetchMap β) (calls : List (Call β)) : FetchMap β :=
  calls.foldl after map

/-- The call is in the window's way: it clears all, or its own window is
accepted and serves an address of this one. -/
def Call.Removes (w : FetchWindow β) (call : Call β) : Prop :=
  call = .clear ∨ ∃ new, call.window? = some new ∧ w.Clash new

/-- A window is installed if it can be, and takes the place of those in its
way. -/
theorem install_eq (map : FetchMap β) (low high : UInt16) (buffer : β)
    (available offset : USize) :
    (Call.perform map (.install low high buffer available offset)).toOption
      = ((Call.install low high buffer available offset).window?).map fun new =>
          ofWindows (map.windows.filter (fun w => !w.overlaps new.low new.high)
            ++ [new]) := by
  have hinverted : high < low ↔ ¬low ≤ high := UInt16.not_le.symm
  show (map.install low high buffer available.toNat offset.toNat).toOption
    = Option.map _ (if _ then _ else none)
  unfold install
  by_cases hrange : low ≤ high
  · rw [if_neg fun h => hinverted.1 h hrange]
    by_cases hfits : offset.toNat + FetchWindow.span low high ≤ available.toNat
    · rw [if_neg (Nat.not_lt.2 hfits), if_pos ⟨hrange, hfits⟩]
      rfl
    · rw [if_pos (Nat.not_le.1 hfits), if_neg fun h => hfits h.2]
      rfl
  · rw [if_pos (hinverted.2 hrange), if_neg fun h => hrange h.1]
    rfl

/-- A call is accepted if it clears, or can have the window that it asks for. -/
theorem perform_ok_iff (map : FetchMap β) (call : Call β) :
    (∃ map', call.perform map = .ok map') ↔ call = .clear
      ∨ ∃ w, call.window? = some w := by
  have hsome : (∃ map', call.perform map = .ok map')
      ↔ (call.perform map).toOption.isSome = true := by
    cases call.perform map with
    | ok map' => exact ⟨fun _ => rfl, fun _ => ⟨map', rfl⟩⟩
    | error e => exact ⟨nofun, nofun⟩
  rw [hsome]
  cases call with
  | clear => exact ⟨fun _ => .inl rfl, fun _ => rfl⟩
  | install low high buffer available offset =>
      rw [install_eq, Option.isSome_map, Option.isSome_iff_exists]
      exact (or_iff_right nofun).symm

/-- A window that is accepted is not inverted, and the places of its addresses
are machine words. -/
theorem window?_fits {call : Call β} {new : FetchWindow β}
    (h : call.window? = some new) :
    new.low ≤ new.high ∧ new.offset + FetchWindow.span new.low new.high
      < USize.size := by
  cases call with
  | clear => cases h
  | install low high buffer available offset =>
      obtain ⟨⟨hrange, hfits⟩, hnew⟩ := Option.ite_none_right_eq_some.1 h
      cases hnew
      exact ⟨hrange, Nat.lt_of_le_of_lt hfits available.toNat_lt_size⟩

/-- A call clears all, or installs the window that it asks for, or is
refused. -/
theorem after_cases (map : FetchMap β) (call : Call β) :
    (call = .clear ∧ map.after call = .empty)
      ∨ (∃ new, call.window? = some new ∧ map.after call
          = ofWindows (map.windows.filter
            (fun w => !w.overlaps new.low new.high) ++ [new]))
      ∨ (call ≠ .clear ∧ call.window? = none ∧ map.after call = map) := by
  cases call with
  | clear => exact .inl ⟨rfl, rfl⟩
  | install low high buffer available offset =>
      have hinstall := install_eq map low high buffer available offset
      have hafter : map.after (.install low high buffer available offset)
          = (Call.perform map
            (.install low high buffer available offset)).toOption.getD map := by
        unfold after
        cases Call.perform map _ <;> rfl
      rw [hafter, hinstall]
      cases hwindow : (Call.install low high buffer available offset).window?
        with
      | some new => exact .inr (.inl ⟨new, rfl, rfl⟩)
      | none => exact .inr (.inr ⟨nofun, rfl, rfl⟩)

-- =========================================================== the invariant

/-- What look-ups go by: the banks are those of the windows, ranges are not
inverted, no two windows serve one address, and their places are machine
words. -/
structure Sound (map : FetchMap β) : Prop where
  banks : map = ofWindows map.windows
  ordered : ∀ w ∈ map.windows, w.low ≤ w.high
  disjoint : map.windows.Pairwise fun w w' => ¬w.Clash w'
  places : ∀ w ∈ map.windows, w.offset + FetchWindow.span w.low w.high
      < USize.size

/-- Without windows the map is sound. -/
theorem sound_empty : (empty : FetchMap β).Sound where
  banks := rfl
  ordered := nofun
  disjoint := .nil
  places := nofun

/-- The windows that stay when a new one comes. -/
theorem mem_kept {map : FetchMap β} (h : map.Sound) {new : FetchWindow β}
    (hnew : new.low ≤ new.high) {w : FetchWindow β} :
    w ∈ map.windows.filter (fun w => !w.overlaps new.low new.high)
      ↔ w ∈ map.windows ∧ ¬w.Clash new := by
  rw [List.mem_filter]
  refine and_congr_right fun hw => ?_
  rw [← FetchWindow.overlaps_iff_clash (h.ordered w hw) hnew, Bool.not_eq_true',
    Bool.not_eq_true]

/-- A call keeps the map sound. -/
theorem Sound.after {map : FetchMap β} (h : map.Sound) (call : Call β) :
    (map.after call).Sound := by
  rcases after_cases map call with ⟨-, hafter⟩ | ⟨new, hwindow, hafter⟩ | ⟨-,
    -, hafter⟩
  · rw [hafter]
    exact sound_empty
  · obtain ⟨hrange, hplaces⟩ := window?_fits hwindow
    have hall : ∀ {P : FetchWindow β → Prop}, (∀ w ∈ map.windows, P w) → P new →
        ∀ w ∈ map.windows.filter (fun w => !w.overlaps new.low new.high)
          ++ [new], P w := by
      intro P hold hlast w hw
      rcases List.mem_append.1 hw with hkept | hw
      · exact hold w (List.mem_filter.1 hkept).1
      · exact List.mem_singleton.1 hw ▸ hlast
    rw [hafter]
    refine ⟨rfl, hall h.ordered hrange, ?_, hall h.places hplaces⟩
    refine List.pairwise_append.2 ⟨h.disjoint.filter _,
      List.pairwise_singleton _ _, ?_⟩
    intro w hw last hlast
    rw [List.mem_singleton.1 hlast]
    exact ((mem_kept h hrange).1 hw).2
  · rw [hafter]
    exact h

theorem Sound.afterAll {map : FetchMap β} (h : map.Sound)
    (calls : List (Call β)) :
    (map.afterAll calls).Sound := by
  induction calls generalizing map with
  | nil => exact h
  | cons call rest ih => exact ih (h.after call)

-- ============================================================= the history

/-- A call leaves what is not in its way, and adds what it asks for. -/
theorem mem_after {map : FetchMap β} (h : map.Sound) (call : Call β)
    (w : FetchWindow β) :
    w ∈ (map.after call).windows
      ↔ (w ∈ map.windows ∧ ¬call.Removes w) ∨ call.window? = some w := by
  unfold Call.Removes
  -- cleared, a window accepted, or refused
  rcases after_cases map call with
    ⟨rfl, hafter⟩ | ⟨new, hwindow, hafter⟩ | ⟨hcall, hwindow, hafter⟩
  · rw [hafter]
    exact ⟨nofun,
      fun hmem => hmem.elim (fun hold => absurd (.inl rfl) hold.2) nofun⟩
  · have hcall : call ≠ .clear := by
      rintro rfl
      cases hwindow
    rw [hafter, hwindow]
    show w ∈ _ ++ [new] ↔ _
    rw [List.mem_append, mem_kept h (window?_fits hwindow).1,
      List.mem_singleton, Option.some.injEq]
    refine or_congr (and_congr_right fun _ => not_congr ?_) eq_comm
    constructor
    · exact fun hclash => .inr ⟨new, rfl, hclash⟩
    · rintro (hclear | ⟨_, hsame, hclash⟩)
      · exact absurd hclear hcall
      · exact Option.some.inj hsame ▸ hclash
  · rw [hafter, hwindow]
    constructor
    · refine fun hw => .inl ⟨hw, ?_⟩
      rintro (hclear | ⟨_, hnone, -⟩)
      · exact hcall hclear
      · cases hnone
    · rintro (⟨hw, -⟩ | hnone)
      · exact hw
      · cases hnone

/-- So a window is there if it was there or has come, and nothing since then was
in its way. -/
theorem mem_afterAll {map : FetchMap β} (h : map.Sound) (calls : List (Call β))
    (w : FetchWindow β) :
    w ∈ (map.afterAll calls).windows
      ↔ (w ∈ map.windows ∧ ∀ call ∈ calls, ¬call.Removes w)
        ∨ ∃ earlier call later, calls = earlier ++ call :: later
          ∧ call.window? = some w
          ∧ ∀ call ∈ later, ¬call.Removes w := by
  induction calls generalizing map with
  | nil => simp [afterAll]
  | cons first rest ih =>
      show w ∈ ((map.after first).afterAll rest).windows ↔ _
      rw [ih (h.after first), mem_after h, List.forall_mem_cons]
      constructor
      · rintro (⟨⟨hw, hfirst⟩ | hcomes, hrest⟩
          | ⟨earlier, call, later, rfl, hcall⟩)
        · exact .inl ⟨hw, hfirst, hrest⟩
        · exact .inr ⟨[], first, rest, rfl, hcomes, hrest⟩
        · exact .inr ⟨first :: earlier, call, later, rfl, hcall⟩
      · rintro (⟨hw, hfirst, hrest⟩
          | ⟨earlier, call, later, hsplit, hcomes, hlater⟩)
        · exact .inl ⟨.inl ⟨hw, hfirst⟩, hrest⟩
        · cases earlier with
          | nil =>
              cases hsplit
              exact .inl ⟨.inr hcomes, hlater⟩
          | cons _ earlier =>
              cases hsplit
              exact .inr ⟨earlier, call, later, rfl, hcomes, hlater⟩

end FetchMap

end ConsoleBoard.Z80
