/-
A configuration survives its written form.

The form is made and read by a text layer, of which only its two laws are
known (`TextLayer.Laws`). An accepted configuration is one that the layer can
write, since the place of its board is in the database and so far below the
largest number that TOML has. What is written denotes the record, the record
gives the configuration (`given_table`), and so the layer reads it. The check
that ends the reading is the one that the configuration has passed already.

# What the laws leave open

The result holds of every layer that keeps the two laws, however it spells a
value: the order of the fields, blanks, comments and the form of a number are
its own matter. That such a layer exists is shown beside it, by the one that
the program uses (`toml_laws`), and the example goes through that layer.
-/
import ConsoleBoard.Proofs.Config.Accepted
import ConsoleBoard.Proofs.Config.Document

namespace ConsoleBoard.Config

/-- What is accepted can be written: its counts fit the format. -/
theorem Accepted.writable {c : Config} (h : c.Accepted) : c.Writable := by
  intro index hindex
  have hdatabase : Eeprom.Board.database.length ≤ maxInteger := by decide
  exact Nat.le_of_lt (Nat.lt_of_lt_of_le (h.board index hindex) hdatabase)

/-- Writing and reading a configuration gives it back, with any text layer that
keeps its laws. If the values of a configuration pass the check, it is written
without an error, and its written form is read without an error as the same
configuration: the same timings, the same board or none, and the same kinds of
controller on the ports and behind the multitap. -/
theorem ofText_toText {layer : TextLayer} {Denotes : String → Toml → Prop}
    (hlaws : layer.Laws Denotes) {c : Config} (h : c.validate = .ok ()) :
    ∃ text, c.toText layer = .ok text ∧ ofText layer text = .ok c := by
  have haccepted : c.Accepted := (validate_eq_ok_iff c).1 h
  have hwritable := haccepted.writable
  obtain ⟨text, hwrite, hdenotes⟩ := hlaws.writes c hwritable
  have hread := hlaws.reads text c.table c hdenotes (given_table hwritable)
  refine ⟨text, ?_, ?_⟩
  · unfold toText
    rw [hwrite]
    rfl
  · unfold ofText
    rw [hread]
    show (do c.validate; return c) = Except.ok c
    rw [h]
    rfl

/-- The last board of the database, and a full multitap on the second port. -/
theorem ofText_toText_multitap :
    let c : Config := {
      cyclesPerLine := 227
      linesPerFrame := 313
      eepromType := some 7
      ports := { two := .teamPlayer, ext := .paddle }
      chained := [.sixButton, .none, .threeButton, .coleco] }
    TextLayer.toml.Laws (fun text v => Toml.parse? text = some v)
      ∧ c.validate = .ok ()
      ∧ ∃ text, c.toText .toml = .ok text ∧ ofText .toml text = .ok c := by
  intro c
  have hvalid : c.validate = .ok () := by decide
  exact ⟨toml_laws, hvalid, ofText_toText toml_laws hvalid⟩

end ConsoleBoard.Config
