/-
Lines of a document read back.

A writer that keeps to whole numbers, names and lists of names uses little of
the grammar: an entry, a header and an empty line (`Line`). The reader takes
such lines for the statements that they are (`statements_lines`). Its loops run
on fuel that is counted in tokens, and every round takes at least one, so the
fuel that a list of lines needs is its length. A list of names is the only value
with a loop of its own (`items_names`), and the only one that nests.

# In stages

Tokens come first: what a line writes has tokens that stand apart
(`chain_lines`) and nest no deeper than an array (`depthFrom_lines`). Then each
value is read back with any tokens behind it (`value_tokens`), each line as its
statement (`statement_entry`, `statement_header`), and the document by
induction over its lines. `parse?_lines` puts both stages behind the text.
-/
import ConsoleBoard.Proofs.Text.Digits
import ConsoleBoard.Proofs.Toml.Tokens

namespace ConsoleBoard.Toml

-- ================================================================= numbers

/-- Without the mark there is one part. -/
private theorem splitAt_of_not_mem {mark : Char} {cs : List Char}
    (h : mark ∉ cs) :
    Text.splitAt mark cs = [cs] := by
  induction cs with
  | nil => rfl
  | cons c cs ih =>
      have hc : c ≠ mark := fun hc => h (hc ▸ List.mem_cons_self)
      have hrest := ih fun hmem => h (List.mem_cons_of_mem c hmem)
      rw [Text.splitAt, hrest]
      exact if_neg hc

/-- The digits of a number need no grouping. -/
private theorem grouped?_toDigits (n : Nat) :
    grouped? 10 (Nat.toDigits 10 n) = some n := by
  have hmark : '_' ∉ Nat.toDigits 10 n := fun h =>
    absurd (Text.isDigit_of_mem_toDigits h) (by decide)
  have halphanum : ∀ c ∈ Nat.toDigits 10 n, c.isAlphanum = true := by
    intro c hc
    simp [Char.isAlphanum, Text.isDigit_of_mem_toDigits hc]
  have hungrouped : ungrouped? (Nat.toDigits 10 n)
      = some (Nat.toDigits 10 n) := by
    unfold ungrouped?
    rw [splitAt_of_not_mem hmark]
    simpa [Nat.toDigits_ne_nil] using halphanum
  unfold grouped?
  rw [hungrouped]
  exact Text.ofDigits?_toDigits n

/-- The first character of a number is a digit. -/
private theorem isDigit_of_toDigits {n : Nat} {c : Char} {cs : List Char}
    (h : Nat.toDigits 10 n = c :: cs) : c.isDigit = true :=
  Text.isDigit_of_mem_toDigits (by rw [h]; exact List.mem_cons_self)

/-- Digits have no sign in front of them. -/
theorem sign_toDigits (n : Nat) :
    sign (Nat.toDigits 10 n) = (.absent, Nat.toDigits 10 n) := by
  unfold sign
  split
  · rename_i h
    exact absurd (isDigit_of_toDigits h) (by decide)
  · rename_i h
    exact absurd (isDigit_of_toDigits h) (by decide)
  · rfl

/-- A decimal is read back from its digits. -/
private theorem decimal?_toDigits (n : Nat) :
    decimal? .absent (Nat.toDigits 10 n) = some n := by
  unfold decimal?
  split
  · rename_i h
    exact absurd (Text.eq_nil_of_toDigits_zero h) nofun
  · rename_i h
    exact absurd (isDigit_of_toDigits h) (by decide)
  · exact grouped?_toDigits n

/-- An integer is read back from its digits. -/
private theorem integer?_toDigits (n : Nat) :
    integer? (Nat.toDigits 10 n) = some (n : Int) := by
  have hzero : ∀ {c cs}, Nat.toDigits 10 n ≠ '0' :: c :: cs := fun h =>
    absurd (Text.eq_nil_of_toDigits_zero h) nofun
  unfold integer?
  split
  · rename_i h
    exact absurd h hzero
  · rename_i h
    exact absurd h hzero
  · rename_i h
    exact absurd h hzero
  · rw [sign_toDigits]
    simp [decimal?_toDigits]

private theorem scalar?_toDigits (n : Nat) :
    scalar? (Nat.toDigits 10 n) = some (.integer n) := by
  have htrue : Nat.toDigits 10 n ≠ ['t', 'r', 'u', 'e'] := fun h =>
    absurd (isDigit_of_toDigits h) (by decide)
  have hfalse : Nat.toDigits 10 n ≠ ['f', 'a', 'l', 's', 'e'] := fun h =>
    absurd (isDigit_of_toDigits h) (by decide)
  unfold scalar?
  rw [if_neg htrue, if_neg hfalse, integer?_toDigits]

/-- Digits may stand bare. -/
private theorem bare_toDigits (n : Nat) : Bare (Nat.toDigits 10 n) := by
  refine ⟨Nat.toDigits_ne_nil, List.all_eq_true.2 fun c hc => ?_⟩
  simp [Reader.isBareKeyChar, Char.isAlphanum, Text.isDigit_of_mem_toDigits hc]

-- =============================================================== the lines

/-- The values that are written. -/
inductive Written
  | count (n : Nat)
  | name (s : String)
  | names (list : List String)

namespace Written

/-- The value that is meant. -/
def toml : Written → Toml
  | count n => .integer n
  | name s => .text s
  | names list => .array (list.map .text)

/-- The names of a list behind the first one. -/
def further (list : List String) : List Token :=
  list.flatMap fun s => [.mark ',', .blank [' '], .line s]

def tokens : Written → List Token
  | count n => [.word (Nat.toDigits 10 n)]
  | name s => [.line s]
  | names [] => [.mark '[', .mark ']']
  | names (s :: list) => .mark '[' :: .line s :: further list ++ [.mark ']']

/-- Every name in it is bare. -/
def Plain : Written → Prop
  | count _ => True
  | name s => Bare s.toList
  | names list => ∀ s ∈ list, Bare s.toList

end Written

/-- A line of a document, the empty one included. -/
inductive Line
  | empty
  | entry (key : String) (v : Written)
  | header (key : String)

namespace Line

def tokens : Line → List Token
  | empty => [.lineEnd]
  | entry key v =>
    [.word key.toList, .blank [' '], .mark '=', .blank [' ']] ++ v.tokens
      ++ [.lineEnd]
  | header key => [.mark '[', .word key.toList, .mark ']', .lineEnd]

def statement? : Line → Option Statement
  | empty => none
  | entry key v => some (.assign ⟨[], key⟩ v.toml)
  | header key => some (.table ⟨[], key⟩)

def Plain : Line → Prop
  | empty => True
  | entry key v => Bare key.toList ∧ v.Plain
  | header key => Bare key.toList

end Line

-- =============================================================== as tokens

private theorem plain_further {list : List String}
    (h : ∀ s ∈ list, Bare s.toList) :
    ∀ t ∈ Written.further list, t.Plain := by
  intro t ht
  obtain ⟨s, hs, hmem⟩ := List.mem_flatMap.1 ht
  simp only [List.mem_cons, List.not_mem_nil, or_false] at hmem
  rcases hmem with rfl | rfl | rfl
  · exact rfl
  · exact rfl
  · exact h s hs

theorem Written.Plain.tokens {v : Written} (h : v.Plain) :
    ∀ t ∈ v.tokens, t.Plain := by
  cases v with
  | count n =>
      intro t ht
      obtain rfl := List.mem_singleton.1 ht
      exact bare_toDigits n
  | name s =>
      intro t ht
      obtain rfl := List.mem_singleton.1 ht
      exact h
  | names list =>
      cases list with
      | nil =>
          intro t ht
          simp only [Written.tokens, List.mem_cons, List.not_mem_nil,
            or_false] at ht
          rcases ht with rfl | rfl <;> rfl
      | cons s list =>
          have hfurther :=
            plain_further fun s hs => h s (List.mem_cons_of_mem _ hs)
          intro t ht
          simp only [Written.tokens, List.mem_cons, List.mem_append,
            List.cons_append, List.not_mem_nil, or_false] at ht
          rcases ht with rfl | rfl | ht | rfl
          · rfl
          · exact h s List.mem_cons_self
          · exact hfurther t ht
          · rfl

theorem Line.Plain.tokens {l : Line} (h : l.Plain) :
    ∀ t ∈ l.tokens, t.Plain := by
  intro t ht
  cases l with
  | empty =>
      obtain rfl := List.mem_singleton.1 ht
      trivial
  | entry key v =>
      simp only [Line.tokens, List.mem_append, List.mem_cons, List.not_mem_nil,
        or_false] at ht
      rcases ht with ((rfl | rfl | rfl | rfl) | ht) | rfl
      · exact h.1
      · rfl
      · rfl
      · rfl
      · exact h.2.tokens t ht
      · trivial
  | header key =>
      simp only [Line.tokens, List.mem_cons, List.not_mem_nil, or_false] at ht
      rcases ht with rfl | rfl | rfl | rfl
      · rfl
      · exact h
      · rfl
      · trivial

section

variable {rest : List Token}

/-- An array that is not empty, token by token. -/
theorem Written.tokens_names (s : String) (list : List String)
    (rest : List Token) :
    (names (s :: list)).tokens ++ rest
      = .mark '[' :: .line s :: (further list ++ .mark ']' :: rest) := by
  simp [tokens]

theorem Line.tokens_entry (key : String) (v : Written) (rest : List Token) :
    (entry key v).tokens ++ rest
      = .word key.toList :: .blank [' '] :: .mark '=' :: .blank [' ']
        :: (v.tokens ++ .lineEnd :: rest) := by
  simp [tokens]

/-- Marks, quoted names and line ends end by themselves. -/
theorem chain_cons {t : Token} (ht : ∀ t', t.Apart t')
    (h : rest.IsChain Token.Apart) :
    (t :: rest).IsChain Token.Apart :=
  List.isChain_cons.2 ⟨fun t' _ => ht t', h⟩

/-- Further members keep the tokens behind them apart. -/
private theorem chain_further (list : List String)
    (h : rest.IsChain Token.Apart) :
    (Written.further list ++ rest).IsChain Token.Apart := by
  induction list with
  | nil => exact h
  | cons s list ih =>
      have hname : (Token.line s :: (Written.further list ++ rest)).IsChain
          Token.Apart :=
        chain_cons (fun _ => trivial) ih
      have hblank : (Token.blank [' '] :: .line s
          :: (Written.further list ++ rest)).IsChain
          Token.Apart := List.isChain_cons_cons.2 ⟨trivial, hname⟩
      exact chain_cons (fun _ => trivial) hblank

/-- A value follows a blank, and the end of the line follows a value. -/
theorem chain_value (v : Written) (h : rest.IsChain Token.Apart) :
    (.blank [' '] :: (v.tokens ++ .lineEnd :: rest)).IsChain Token.Apart := by
  have hend : (Token.lineEnd :: rest).IsChain Token.Apart :=
    chain_cons (fun _ => trivial) h
  have hclose : (Token.mark ']' :: .lineEnd :: rest).IsChain Token.Apart :=
    chain_cons (fun _ => trivial) hend
  cases v with
  | count n =>
      exact List.isChain_cons_cons.2 ⟨trivial,
        List.isChain_cons_cons.2 ⟨trivial, hend⟩⟩
  | name s =>
      exact List.isChain_cons_cons.2 ⟨trivial,
        chain_cons (fun _ => trivial) hend⟩
  | names list =>
      cases list with
      | nil =>
          exact List.isChain_cons_cons.2 ⟨trivial,
            chain_cons (fun _ => trivial) hclose⟩
      | cons s list =>
          have hname : (Token.line s
              :: (Written.further list ++ .mark ']' :: .lineEnd
                :: rest)).IsChain Token.Apart :=
            chain_cons (fun _ => trivial) (chain_further list hclose)
          rw [Written.tokens_names]
          exact List.isChain_cons_cons.2 ⟨trivial,
            chain_cons (fun _ => trivial) hname⟩

private theorem chain_line (l : Line) (h : rest.IsChain Token.Apart) :
    (l.tokens ++ rest).IsChain Token.Apart := by
  have hend : (Token.lineEnd :: rest).IsChain Token.Apart :=
    chain_cons (fun _ => trivial) h
  cases l with
  | empty => exact hend
  | entry key v =>
      have hvalue :=
        chain_cons (t := .mark '=') (fun _ => trivial) (chain_value v h)
      rw [Line.tokens_entry]
      exact List.isChain_cons_cons.2 ⟨trivial,
        List.isChain_cons_cons.2 ⟨trivial, hvalue⟩⟩
  | header key =>
      have hclose : (Token.mark ']' :: .lineEnd :: rest).IsChain Token.Apart :=
        chain_cons (fun _ => trivial) hend
      exact chain_cons (fun _ => trivial)
        (List.isChain_cons_cons.2 ⟨trivial, hclose⟩)

end

/-- The tokens of a document stand apart. -/
private theorem chain_lines (lines : List Line) :
    (lines.flatMap Line.tokens).IsChain Token.Apart := by
  induction lines with
  | nil => exact .nil
  | cons l lines ih => exact chain_line l ih

-- ================================================================= reading

namespace Reader

variable {α β : Type} {rest : List Token}

/-- A reader that takes something, and what is done with it. -/
theorem bind_of {m : Reader α} {next : α → Reader β}
    {tokens : List Token} {a : α} (h : m tokens = some (a, rest)) :
    (m >>= next) tokens = next a rest := by
  show (m tokens >>= fun taken => next taken.1 taken.2) = _
  rw [h]
  rfl

/-- Another mark is not accepted, and stays. -/
private theorem accept_of_ne {c d : Char} (h : d ≠ c) :
    accept c (.mark d :: rest) = some (false, .mark d :: rest) := if_neg h

/-- The mark itself is accepted. -/
private theorem accept_self (c : Char) :
    accept c (.mark c :: rest) = some (true, rest) := if_pos rfl

private theorem keyPart_word {cs : List Char} (h : Bare cs) :
    keyPart (.word cs :: rest) = some (String.ofList cs, rest) := by
  show (if cs.all isBareKeyChar = true
    then (pure (String.ofList cs) : Reader String)
    else failure) rest = _
  rw [if_pos h.2]
  rfl

/-- A bare word is a key of one part, if no point is behind it. -/
theorem key_word {key : String} (h : Bare key.toList) {c : Char} (hc : c ≠ '.')
    {after : List Token}
    (hrest : skipBlanks rest = some ((), .mark c :: after)) :
    Reader.key (.word key.toList :: rest)
      = some (⟨[], key⟩, .mark c :: after) := by
  have hskip : skipBlanks (.word key.toList :: rest)
      = some ((), .word key.toList :: rest) := rfl
  show keyUpTo [] (79 + 1) _ = _
  rw [keyUpTo, bind_of hskip, bind_of (keyPart_word h), bind_of hrest,
    bind_of (accept_of_ne hc), String.ofList_toList]
  rfl

/-- A blank between items is passed over. -/
private theorem items_blank (fuel : Nat) (width : List Char) :
    items (fuel + 1) (.blank width :: rest) = items (fuel + 1) rest := rfl

/-- Names up to the end of their list, which take one round each. -/
theorem items_names (s : String) (list : List String) {fuel : Nat}
    (hfuel : list.length + 2 ≤ fuel) :
    items fuel (.line s :: (Written.further list ++ .mark ']' :: rest))
      = some (.text s :: list.map .text, rest) := by
  induction list generalizing s fuel with
  | nil =>
      obtain ⟨fuel, rfl⟩ := Nat.exists_eq_add_of_le' hfuel
      rfl
  | cons t list ih =>
      rw [List.length_cons] at hfuel
      obtain ⟨fuel, rfl⟩ : ∃ k, fuel = k + 2 := ⟨fuel - 2, by omega⟩
      have hmore := ih t (by omega : list.length + 2 ≤ fuel + 1)
      have hfirst :
          items (fuel + 2)
            (.line s :: (Written.further (t :: list) ++ .mark ']' :: rest))
          = (items (fuel + 1)
                (.blank [' '] :: .line t
                  :: (Written.further list ++ .mark ']' :: rest))
              >>= fun taken => some (.text s :: taken.1, taken.2)) := rfl
      rw [hfirst, items_blank, hmore]
      rfl

/-- Each further member is three tokens. -/
private theorem length_further (list : List String) :
    (Written.further list).length = 3 * list.length := by
  induction list with
  | nil => rfl
  | cons s list ih =>
      have hlist : (Written.further (s :: list)).length
          = (Written.further list).length + 3 := rfl
      rw [hlist, List.length_cons]
      omega

/-- A written value at the end of its line. -/
theorem value_tokens (v : Written) {fuel : Nat}
    (hfuel : v.tokens.length ≤ fuel) :
    value fuel (v.tokens ++ .lineEnd :: rest)
      = some (v.toml, .lineEnd :: rest) := by
  cases v with
  | count n =>
      obtain ⟨fuel, rfl⟩ := Nat.exists_eq_add_of_le' hfuel
      show (scalar? (Nat.toDigits 10 n ++ [])).map
        (fun v => (v, Token.lineEnd :: rest)) = _
      rw [List.append_nil, scalar?_toDigits]
      rfl
  | name s =>
      obtain ⟨fuel, rfl⟩ := Nat.exists_eq_add_of_le' hfuel
      rfl
  | names list =>
      -- an empty list needs no fuel for its items
      cases list with
      | nil =>
          obtain ⟨fuel, rfl⟩ := Nat.exists_eq_add_of_le' hfuel
          rfl
      | cons s list =>
          have hlength : (Written.names (s :: list)).tokens.length
              = 3 * list.length + 3 := by
            simp [Written.tokens, length_further]
          obtain ⟨fuel, rfl⟩ : ∃ k, fuel = k + 1 := ⟨fuel - 1, by omega⟩
          have hitems : items fuel
              (.line s :: (Written.further list ++ .mark ']'
                  :: .lineEnd :: rest))
              = some (.text s :: list.map .text, .lineEnd :: rest) :=
            items_names s list (by omega)
          have harray : value (fuel + 1)
              (.mark '[' :: .line s
                :: (Written.further list ++ .mark ']' :: .lineEnd :: rest))
              = (items fuel (.line s
                  :: (Written.further list ++ .mark ']' :: .lineEnd :: rest))
                  >>= fun taken => some (.array taken.1, taken.2)) := rfl
          rw [Written.tokens_names, harray, hitems]
          rfl

/-- A line of the document is read as its entry. -/
private theorem statement_entry {key : String} (hkey : Bare key.toList)
    (v : Written) {fuel : Nat} (hfuel : v.tokens.length ≤ fuel) :
    statement fuel (.word key.toList :: .blank [' '] :: .mark '='
      :: .blank [' ']
        :: (v.tokens ++ .lineEnd :: rest))
      = some (.assign ⟨[], key⟩ v.toml, .lineEnd :: rest) := by
  have hskip : skipBlanks
      (.blank [' '] :: .mark '=' :: .blank [' ']
        :: (v.tokens ++ .lineEnd :: rest))
      = some ((), .mark '=' :: .blank [' ']
        :: (v.tokens ++ .lineEnd :: rest)) := rfl
  have hword : accept '['
      (.word key.toList :: .blank [' '] :: .mark '=' :: .blank [' ']
        :: (v.tokens ++ .lineEnd :: rest))
      = some (false, .word key.toList :: .blank [' '] :: .mark '='
        :: .blank [' ']
        :: (v.tokens ++ .lineEnd :: rest)) := rfl
  have hequals : expect '='
      (.mark '=' :: .blank [' '] :: (v.tokens ++ .lineEnd :: rest))
      = some ((), .blank [' '] :: (v.tokens ++ .lineEnd :: rest)) := rfl
  have hblank : skipBlanks (.blank [' '] :: (v.tokens ++ .lineEnd :: rest))
      = some ((), v.tokens ++ .lineEnd :: rest) := by
    cases v with
    | count n | name s => rfl
    | names list => cases list <;> rfl
  -- key, sign and value, with the blanks between them
  rw [statement, bind_of hword, if_neg (by decide),
    bind_of (key_word hkey (by decide) hskip), bind_of hequals, bind_of hblank,
    bind_of (value_tokens v hfuel)]
  rfl

/-- A header is read as its table. -/
private theorem statement_header {key : String} (hkey : Bare key.toList)
    (fuel : Nat) :
    statement fuel (.mark '[' :: .word key.toList :: .mark ']'
      :: .lineEnd :: rest)
      = some (.table ⟨[], key⟩, .lineEnd :: rest) := by
  have hopen : accept '[' (.word key.toList :: .mark ']' :: .lineEnd :: rest)
      = some (false, .word key.toList :: .mark ']' :: .lineEnd :: rest) := rfl
  have hskip : skipBlanks (.mark ']' :: .lineEnd :: rest)
      = some ((), .mark ']' :: .lineEnd :: rest) := rfl
  have hclose : expect ']' (.mark ']' :: .lineEnd :: rest)
      = some ((), .lineEnd :: rest) := rfl
  rw [statement, bind_of (accept_self '['), if_pos rfl, bind_of hopen,
    if_neg (by decide), bind_of (key_word hkey (by decide) hskip),
    bind_of hclose]
  rfl

private theorem lineEnd_self :
    Reader.lineEnd (.lineEnd :: rest) = some ((), rest) := rfl

/-- A statement at the end of its line, and those behind it. -/
theorem statements_cons {tokens : List Token} {fuel : Nat} {s : Statement}
    {more : List Statement} (hskip : skipSpace tokens = some ((), tokens))
    (hdone : done tokens = some (false, tokens))
    (hs : statement (fuel + 1) tokens = some (s, .lineEnd :: rest))
    (hrest : statements fuel rest = some (more, [])) :
    statements (fuel + 1) tokens = some (s :: more, []) := by
  rw [statements, bind_of hskip, bind_of hdone, if_neg (by decide), bind_of hs,
    bind_of lineEnd_self, bind_of hrest]
  rfl

/-- The lines of a document are the statements that they are meant to be. -/
theorem statements_lines {lines : List Line} (h : ∀ l ∈ lines, l.Plain)
    {fuel : Nat} (hfuel : (lines.flatMap Line.tokens).length ≤ fuel) :
    statements fuel (lines.flatMap Line.tokens)
      = some (lines.filterMap Line.statement?, []) := by
  induction lines generalizing fuel with
  | nil => cases fuel <;> rfl
  | cons l lines ih =>
      have hl := h l List.mem_cons_self
      have hlines := fun l' hl' => h l' (List.mem_cons_of_mem l hl')
      rw [List.flatMap_cons, List.length_append] at hfuel
      rw [List.flatMap_cons]
      cases l with
      | empty =>
          -- an empty line is passed over with the space before the next
          -- statement
          have hskip : statements fuel (.lineEnd :: lines.flatMap Line.tokens)
              = statements fuel (lines.flatMap Line.tokens) := by
            cases fuel <;> rfl
          have hrest :=
            ih hlines (by omega : (lines.flatMap Line.tokens).length ≤ fuel)
          exact hskip.trans hrest
      | entry key v =>
          have hsize : (Line.entry key v).tokens.length
              = v.tokens.length + 5 := by
            simp [Line.tokens]
          obtain ⟨fuel, rfl⟩ : ∃ k, fuel = k + 1 := ⟨fuel - 1, by omega⟩
          have hrest :=
            ih hlines (by omega : (lines.flatMap Line.tokens).length ≤ fuel)
          rw [Line.tokens_entry]
          exact statements_cons rfl rfl
            (statement_entry hl.1 v (by omega)) hrest
      | header key =>
          have hsize : (Line.header key).tokens.length = 4 := rfl
          obtain ⟨fuel, rfl⟩ : ∃ k, fuel = k + 1 := ⟨fuel - 1, by omega⟩
          have hrest :=
            ih hlines (by omega : (lines.flatMap Line.tokens).length ≤ fuel)
          exact statements_cons rfl rfl (statement_header hl (fuel + 1)) hrest

end Reader

-- ================================================================= nesting

section

variable {rest : List Token}

/-- Further members nest nothing. -/
private theorem depthFrom_further (depth : Nat) (list : List String) :
    depthFrom depth (Written.further list ++ rest) = depthFrom depth rest := by
  induction list with
  | nil => rfl
  | cons s list ih => exact ih

/-- A list of names is one level deep, and every bracket is closed. -/
theorem depthFrom_value (v : Written) :
    depthFrom 0 (v.tokens ++ rest) ≤ max 1 (depthFrom 0 rest) := by
  cases v with
  | count n | name s => exact Nat.le_max_right 1 _
  | names list =>
      cases list with
      | nil =>
          show max 0 (max 1 (depthFrom 0 rest)) ≤ _
          omega
      | cons s list =>
          have hopen :
              depthFrom 0 (.mark '[' :: .line s
                :: (Written.further list ++ .mark ']' :: rest))
              = max 0 (depthFrom 1
                (Written.further list ++ .mark ']' :: rest)) := rfl
          have hclose : depthFrom 1 (.mark ']' :: rest)
              = max 1 (depthFrom 0 rest) := rfl
          rw [Written.tokens_names, hopen, depthFrom_further, hclose]
          omega

/-- A line nests an array at most. -/
private theorem depthFrom_line (l : Line) :
    depthFrom 0 (l.tokens ++ rest) ≤ max 1 (depthFrom 0 rest) := by
  cases l with
  | empty => exact Nat.le_max_right 1 _
  | entry key v =>
      rw [Line.tokens_entry]
      exact depthFrom_value v
  | header key =>
      show max 0 (max 1 (depthFrom 0 rest)) ≤ _
      omega

end

/-- No line of a document nests deeper than an array. -/
private theorem depthFrom_lines (lines : List Line) :
    depthFrom 0 (lines.flatMap Line.tokens) ≤ 1 := by
  induction lines with
  | nil => exact Nat.zero_le 1
  | cons l lines ih =>
      have hl : depthFrom 0 (l.tokens ++ lines.flatMap Line.tokens) ≤ _ :=
        depthFrom_line l
      rw [List.flatMap_cons]
      omega

-- ============================================================ the document

/-- A text that spells plain lines out means what their statements make. -/
theorem parse?_lines {lines : List Line} (h : ∀ l ∈ lines, l.Plain) {s : String}
    (hs : s.toList = (lines.flatMap Line.tokens).flatMap Token.spell) :
    parse? s = ofStatements? (lines.filterMap Line.statement?) := by
  have hplain : ∀ t ∈ lines.flatMap Line.tokens, t.Plain := by
    intro t ht
    obtain ⟨l, hl, hmem⟩ := List.mem_flatMap.1 ht
    exact (h l hl).tokens t hmem
  have hdepth : ¬depthLimit < depthFrom 0 (lines.flatMap Line.tokens) := by
    have hone := depthFrom_lines lines
    unfold depthLimit
    omega
  have hread := Reader.statements_lines h (Nat.le_refl _)
  unfold parse?
  rw [tokens?_spell hplain (chain_lines lines) hs]
  simp only [Option.bind_eq_bind, Option.bind_some, if_neg hdepth,
    StateT.run, hread]

end ConsoleBoard.Toml
