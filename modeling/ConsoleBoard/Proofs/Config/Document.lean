/-
TOML documents as the text layer.

The written form is a list of plain lines (`document`), so the reader finds
the statements in it that were meant, and they make the one table that lists
the record (`parse?_text`). In the other direction a table is read by looking
every field up, and a field that gives a value is read as it
(`Field.orElse_eq`); the counts fit into their words, and the names of kinds are
told apart. So this layer keeps both laws of a text layer (`toml_laws`).

# Writing

The text is a list of strings and the document a list of lines, and the two
are brought together line by line (`writes_lines`): a number spells its digits,
a kind its quoted name, an array its members with commas between. From there on
the reader of lines does the work.

# Reading

A record is read key by key, so what is shown of a key is that a value which
gives a field is read as that field (`ports?_of_given`, `chain?_of_given` and
their parts). The whole record is these side by side (`ofToml?_of_given`).
-/
import ConsoleBoard.Config.Text
import ConsoleBoard.Proofs.Config.Layer
import ConsoleBoard.Proofs.Toml.Lines

namespace ConsoleBoard.Config

open Toml (Line Token Written)
open Controller (Kind)

-- =============================================================== the lines

/-- The lines of the written form. -/
def document (c : Config) : List Line :=
  [.entry "cycles_per_line" (.count c.cyclesPerLine.toNat),
    .entry "lines_per_frame" (.count c.linesPerFrame.toNat)]
    ++ (c.eepromType.map fun index =>
      .entry "eeprom_type" (.count index)).toList
    ++ [.empty,
      .header "ports",
      .entry "port1" (.name c.ports.one.name),
      .entry "port2" (.name c.ports.two.name),
      .entry "ext" (.name c.ports.ext.name),
      .empty,
      .header "team_player",
      .entry "devices" (.names (c.chained.map Kind.name))]

/-- The name of a peripheral may stand bare in a document. -/
private theorem bare_name (kind : Kind) : Toml.Bare kind.name.toList := by
  cases kind <;> decide

/-- Every line of the document has a plain key and plain values. -/
private theorem plain_document (c : Config) : ∀ l ∈ c.document, l.Plain := by
  have hentry : ∀ key n, Toml.Bare key.toList →
      (Line.entry key (.count n)).Plain :=
    fun _ _ hkey => ⟨hkey, trivial⟩
  have hname : ∀ key kind, Toml.Bare key.toList →
      (Line.entry key (.name (Kind.name kind))).Plain :=
    fun _ kind hkey => ⟨hkey, bare_name kind⟩
  intro l hl
  simp only [document, List.mem_append, List.mem_cons,
    List.not_mem_nil, or_false, Option.mem_toList, Option.map_eq_some_iff] at hl
  -- line by line, in the order of the document
  rcases hl with ((rfl | rfl) | ⟨index, -, rfl⟩) | rfl | rfl | rfl | rfl | rfl
    | rfl | rfl | rfl
  · exact hentry _ _ (by decide)
  · exact hentry _ _ (by decide)
  · exact hentry _ _ (by decide)
  · trivial
  · exact (by decide : Toml.Bare "ports".toList)
  · exact hname _ _ (by decide)
  · exact hname _ _ (by decide)
  · exact hname _ _ (by decide)
  · trivial
  · exact (by decide : Toml.Bare "team_player".toList)
  · refine ⟨by decide, fun s hs => ?_⟩
    obtain ⟨kind, -, rfl⟩ := List.mem_map.1 hs
    exact bare_name kind

-- ============================================================= the writing

/-- The text spells the value out. -/
def Spells (text : String) (v : Written) : Prop :=
  text.toList = v.tokens.flatMap Token.spell

/-- The text, with the end of its line, spells the line out. -/
def Writes (text : String) (l : Line) : Prop :=
  (text ++ "\n").toList = l.tokens.flatMap Token.spell

private theorem spells_count (n : Nat) : Spells (toString n) (.count n) := by
  unfold Spells
  rw [Nat.toString_eq_repr, Nat.toList_repr]
  exact (List.append_nil _).symm

private theorem toList_quotedKind (kind : Kind) :
    (quotedKind kind).toList = (Token.line kind.name).spell := by
  unfold quotedKind
  rw [String.toList_append, String.toList_append]
  rfl

private theorem spells_kind (kind : Kind) :
    Spells (quotedKind kind) (.name kind.name) := by
  unfold Spells
  rw [toList_quotedKind]
  exact (List.append_nil _).symm

/-- A joined list is its first member, and each other one behind a separator. -/
private theorem intercalate_cons {α : Type} (sep first : List α)
    (more : List (List α)) :
    sep.intercalate (first :: more) = first ++ more.flatMap (sep ++ ·) := by
  induction more generalizing first with
  | nil => simp
  | cons next more ih =>
      rw [List.intercalate_cons_cons, ih next, List.flatMap_cons,
        List.append_assoc, List.append_assoc]

/-- The further members of an array, each behind its comma. -/
private theorem spell_further (kinds : List Kind) :
    (Written.further (kinds.map Kind.name)).flatMap Token.spell
      = (kinds.map fun kind => (quotedKind kind).toList).flatMap
        (", ".toList ++ ·) := by
  induction kinds with
  | nil => rfl
  | cons kind kinds ih =>
      have hfirst : (Written.further ((kind :: kinds).map Kind.name)).flatMap
          Token.spell
          = [',', ' '] ++ (Token.line kind.name).spell
            ++ (Written.further (kinds.map Kind.name)).flatMap Token.spell := by
        simp [Written.further, Token.spell]
      rw [hfirst, ih, List.map_cons, List.flatMap_cons, toList_quotedKind]
      rfl

/-- An array of kinds is written as its tokens. -/
private theorem spells_kinds (kinds : List Kind) :
    Spells ("[" ++ ", ".intercalate (kinds.map quotedKind) ++ "]")
      (.names (kinds.map Kind.name)) := by
  unfold Spells
  rw [String.toList_append, String.toList_append, String.toList_intercalate,
    List.map_map]
  cases kinds with
  | nil => rfl
  | cons kind kinds =>
      have htokens : (Written.names
          ((kind :: kinds).map Kind.name)).tokens.flatMap Token.spell
          = ['['] ++ ((Token.line kind.name).spell
            ++ (Written.further (kinds.map Kind.name)).flatMap Token.spell)
            ++ [']'] := by
        simp [Written.tokens, Token.spell]
      rw [htokens, List.map_cons, intercalate_cons, spell_further,
        ← toList_quotedKind]
      rfl

private theorem writes_entry (key : String) {value : String} {v : Written}
    (h : Spells value v) :
    Writes (entry key value) (.entry key v) := by
  unfold Writes entry
  simp only [String.toList_append]
  rw [h]
  simp [Line.tokens, Token.spell]

/-- The lines of the text are those of the document. -/
theorem writes_lines (c : Config) : List.Forall₂ Writes c.lines c.document := by
  have hcounts : ∀ key n, Writes (entry key (toString n))
      (.entry key (.count n)) :=
    fun key n => writes_entry key (spells_count n)
  have hkinds : ∀ key kind, Writes (entry key (quotedKind kind))
      (.entry key (.name kind.name)) :=
    fun key kind => writes_entry key (spells_kind kind)
  -- the only line that may be missing is missing from both
  have hboard : List.Forall₂ Writes
      (c.eepromType.map fun index =>
        entry "eeprom_type" (toString index)).toList
      (c.eepromType.map fun index =>
        Line.entry "eeprom_type" (.count index)).toList := by
    cases c.eepromType with
    | none => exact .nil
    | some index => exact .cons (hcounts _ _) .nil
  have htiming : List.Forall₂ Writes
      [entry "cycles_per_line" (toString c.cyclesPerLine.toNat),
        entry "lines_per_frame" (toString c.linesPerFrame.toNat)]
      [.entry "cycles_per_line" (.count c.cyclesPerLine.toNat),
        .entry "lines_per_frame" (.count c.linesPerFrame.toNat)] :=
    .cons (hcounts _ _) (.cons (hcounts _ _) .nil)
  have hports : Writes "[ports]" (.header "ports") := by
    unfold Writes
    decide
  have hchain : Writes "[team_player]" (.header "team_player") := by
    unfold Writes
    decide
  refine List.rel_append (List.rel_append htiming hboard) ?_
  exact .cons rfl (.cons hports
    (.cons (hkinds _ _) (.cons (hkinds _ _) (.cons (hkinds _ _)
      (.cons rfl (.cons hchain
        (.cons (writes_entry _ (spells_kinds _)) .nil)))))))

/-- Lines that write their tokens write them all, one line after another. -/
private theorem flatMap_writes {texts : List String} {lines : List Line}
    (h : List.Forall₂ Writes texts lines) :
    (texts.map (· ++ "\n")).flatMap String.toList
      = (lines.flatMap Line.tokens).flatMap Token.spell := by
  induction h with
  | nil => rfl
  | @cons text l texts lines hl _ ih =>
      rw [List.map_cons, List.flatMap_cons, List.flatMap_cons,
        List.flatMap_append, hl, ih]

/-- The text spells the tokens of the document out. -/
theorem toList_text (c : Config) :
    c.text.toList = (c.document.flatMap Line.tokens).flatMap Token.spell := by
  unfold text
  rw [String.toList_join]
  exact flatMap_writes (writes_lines c)

-- ============================================================= the reading

/-- Read back, the statements of the document build its table. -/
private theorem ofStatements?_document (c : Config) :
    Toml.ofStatements? (c.document.filterMap Line.statement?)
      = some c.table := by
  unfold document table
  cases c.eepromType with
  | none => rfl
  | some index => rfl

/-- Reading the text gives the table that it was written from. -/
theorem parse?_text (c : Config) : Toml.parse? c.text = some c.table := by
  rw [Toml.parse?_lines (plain_document c) (toList_text c),
    ofStatements?_document]

/-- A field is read as what it gives, if its reader reads a value as what the
value says. -/
theorem Field.orElse_eq {α : Type} {entries : List (String × Toml)}
    {name : String} {Says : Toml → α → Prop} {read : Toml → Option α}
    {default x : α} (h : Field entries name Says default x)
    (hread : ∀ {v x}, Says v x → read v = some x) :
    Toml.orElse default read (entries.lookup name) = some x := by
  unfold Field at h
  cases hv : entries.lookup name with
  | none =>
      rw [hv] at h
      exact congrArg some h.symm
  | some v =>
      rw [hv] at h
      exact hread h

/-- With no other names, the fields of a table are looked up. -/
theorem Known.fields?_eq {names : List String} {entries : List (String × Toml)}
    (h : Known names entries) :
    (Toml.table entries).fields? names
      = some (names.map fun name => entries.lookup name) :=
  if_pos (List.all_eq_true.2 fun entry hentry =>
    List.contains_iff_mem.2 (h entry hentry))

private theorem upTo?_natCast {high n : Nat} (h : n ≤ high) :
    Toml.upTo? high (.integer n) = some n := by
  have hrange : 0 ≤ (n : Int) ∧ (n : Int) ≤ high := by omega
  exact if_pos hrange

private theorem word32?_toNat (n : UInt32) :
    Toml.word32? (.integer n.toNat) = some n := by
  have hn : n.toNat ≤ 4294967295 := Nat.le_of_lt_succ n.toNat_lt
  unfold Toml.word32?
  rw [upTo?_natCast hn, Option.map_some, UInt32.ofNat_toNat]

private theorem kindOfToml?_name (kind : Kind) :
    kindOfToml? (.text kind.name) = some kind :=
  Kind.ofName?_name kind

/-- What says a word is read as that word. -/
private theorem word32?_of_says {v : Toml} {n : UInt32} (h : SaysWord v n) :
    Toml.word32? v = some n := by
  obtain rfl := h
  exact word32?_toNat n

/-- What says an optional index is read as it. -/
private theorem index?_of_says {v : Toml} {index : Option Nat}
    (h : SaysIndex v index) :
    v.count?.map some = some index := by
  obtain ⟨n, hn, rfl, rfl⟩ := h
  have hcount : Toml.count? (.integer n) = some n :=
    upTo?_natCast (Nat.le_trans hn (by decide))
  rw [hcount]
  rfl

private theorem kindOfToml?_of_says {v : Toml} {kind : Kind}
    (h : SaysKind v kind) :
    kindOfToml? v = some kind := by
  obtain rfl := h
  exact kindOfToml?_name kind

/-- What says a list of kinds is read as the list. -/
private theorem kinds?_of_says {v : Toml} {kinds : List Kind}
    (h : SaysKinds v kinds) :
    Toml.list? kindOfToml? v = some kinds := by
  obtain ⟨items, rfl, hitems⟩ := h
  show items.mapM kindOfToml? = some kinds
  induction hitems with
  | nil => rfl
  | cons hkind _ ih =>
      rw [List.mapM_cons, kindOfToml?_of_says hkind, ih]
      rfl

/-- What gives the two ports is read as them. -/
private theorem ports?_of_given {v : Toml} {p : Ports} (h : GivenPorts v p) :
    Ports.ofToml? v = some p := by
  obtain ⟨known, one, two, ext⟩ := h
  unfold Ports.ofToml?
  rw [known.fields?_eq]
  simp only [Ports.fieldNames, List.map_cons, List.map_nil, Option.bind_eq_bind,
    Option.bind_some, one.orElse_eq kindOfToml?_of_says,
    two.orElse_eq kindOfToml?_of_says, ext.orElse_eq kindOfToml?_of_says]
  rfl

/-- What gives the chained kinds is read as them. -/
private theorem chain?_of_given {v : Toml} {kinds : List Kind}
    (h : GivenChain v kinds) :
    chainOfToml? v = some kinds := by
  obtain ⟨known, devices⟩ := h
  unfold chainOfToml?
  rw [known.fields?_eq]
  exact devices.orElse_eq kinds?_of_says

/-- A value is read as the configuration that it gives. -/
theorem ofToml?_of_given {v : Toml} {c : Config} (h : Given v c) :
    ofToml? v = some c := by
  obtain ⟨known, cycles, lines, board, ports, chained⟩ := h
  unfold ofToml?
  rw [known.fields?_eq]
  simp only [fieldNames, List.map_cons, List.map_nil, Option.bind_eq_bind,
    Option.bind_some, cycles.orElse_eq word32?_of_says,
    lines.orElse_eq word32?_of_says,
    board.orElse_eq index?_of_says, ports.orElse_eq ports?_of_given,
    chained.orElse_eq chain?_of_given]
  rfl

-- ================================================================ the laws

/-- TOML documents keep the laws, where a text denotes what it is parsed as. -/
theorem toml_laws :
    TextLayer.toml.Laws fun text v => Toml.parse? text = some v where
  writes c _ := ⟨c.text, rfl, parse?_text c⟩
  reads text v c htext hgiven := by
    unfold TextLayer.toml
    dsimp only
    rw [htext, Option.bind_some, ofToml?_of_given hgiven]

end ConsoleBoard.Config
