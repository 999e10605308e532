/-
The help text of the program runner. Each option has one line, and the
meanings stand below each other; a value with line ends in it goes on under
its beginning.
-/
import ConsoleBoard.Runner.Arguments

namespace ConsoleBoard.Runner

/-- The column at which the meanings of options begin. -/
def meaningColumn : Nat := 37

/-- Text whose further lines begin at a column. -/
def indented (column : Nat) (s : String) : String :=
  String.ofList (s.toList.flatMap fun c =>
    if c = '\n' then c :: List.replicate column ' ' else [c])

/-- One option of the help text: how it is written, and what it does. -/
def helpEntry (form meaning : String) : String :=
  "  " ++ form ++ String.ofList
    (List.replicate (meaningColumn - 2 - form.length) ' ')
    ++ indented meaningColumn meaning ++ "\n"

/-- How the help text shows a variable and its value. -/
def helpVariable (env : Environment) (name : String) : String :=
  " [env: " ++ name ++ "=" ++ (env.lookup name).getD "" ++ "]"

/-- The help text. -/
def help (env : Environment) : String :=
  String.join [
    "Run a raw Z80 binary\n\n",
    "Usage: z80run [OPTIONS] <IMAGE>\n\n",
    "Arguments:\n  <IMAGE>  Path to the binary image\n\n",
    "Options:\n",
    helpEntry "-a, --load-address <LOAD_ADDRESS>"
      ("Load address (decimal or 0x-prefixed hex); CP/M mode forces 0x0100"
        ++ " [default: 0]"),
    helpEntry "-c, --config <CONFIG>"
      ("TOML core configuration" ++ helpVariable env configVariable),
    helpEntry "-f, --frames <FRAMES>"
      ("Frames to run" ++ helpVariable env framesVariable ++ " [default: 60]"),
    helpEntry "    --irq" "Assert an IRQ at the start of every frame",
    helpEntry "    --fetch-window" "Fetch opcodes straight from RAM",
    helpEntry "    --cpm" "CP/M mode: BDOS console output, stop on warm boot",
    helpEntry "    --json" "Print the final register state as JSON",
    helpEntry "-h, --help" "Print help"]

end ConsoleBoard.Runner
