/-
Tokens written and read back.

`Token.spell` writes a token down, and the reader finds the tokens again in what
is written of several (`tokens?_spell`), if two things hold. Each token is
one that is written as it is meant (`Token.Plain`): bare words, and quoted ones
that need no escapes. And no token runs into the next (`Token.Apart`): what ends
a word is a mark, a blank or the end of a line, and blanks come one at a time.
The first settles what a token begins with, the second where it ends.

# One token, then the rest

`Token.Ends` says of what follows that it does not belong to the token, so a
token is read off the front of any such text (`token?_spell`). Tokens that
stand apart end each other (`ends_of_apart`), and the loop takes them one by
one. What the reader does before it looks at tokens (a mark in front, the ends
of lines) finds nothing to do in such a text.
-/
import ConsoleBoard.Toml.Reader
import Mathlib.Data.List.Chain

namespace ConsoleBoard.Toml

-- ============================================================== bare words

/-- Characters that are a key without quotes. They need no escapes between
quotes either. -/
def Bare (cs : List Char) : Prop := cs ≠ [] ∧ cs.all Reader.isBareKeyChar = true

instance (cs : List Char) : Decidable (Bare cs) :=
  inferInstanceAs (Decidable (_ ∧ _))

/-- The character builds words, and has no other meaning to the reader. -/
structure Inert (c : Char) : Prop where
  word : isWordChar c = true
  unquoted : isQuote c = false
  unescaped : c ≠ '\\'
  allowed : isForbidden c = false
  unreturned : c ≠ '\r'
  unordered : c ≠ '\uFEFF'

/-- The characters of bare keys are the first ones of the code. -/
private theorem toNat_lt_of_isBareKeyChar {c : Char}
    (h : Reader.isBareKeyChar c = true) :
    c.toNat < 128 := by
  have hranges : (decide ('A'.val ≤ c.val ∧ c.val ≤ 'Z'.val)
      || (decide ('a'.val ≤ c.val) && decide (c.val ≤ 'z'.val))
      || (decide ('0'.val ≤ c.val) && decide (c.val ≤ '9'.val))
      || c == '_' || c == '-') = true := h
  simp only [Bool.or_eq_true, Bool.and_eq_true, decide_eq_true_eq, beq_iff_eq,
    UInt32.le_iff_toNat_le] at hranges
  rcases hranges with (((hletter | hletter) | hdigit) | rfl) | rfl
  · exact Nat.lt_of_le_of_lt hletter.2 (by decide)
  · exact Nat.lt_of_le_of_lt hletter.2 (by decide)
  · exact Nat.lt_of_le_of_lt hdigit.2 (by decide)
  · decide
  · decide

/-- The characters of bare keys stand for themselves between quotes. -/
private theorem inert_of_isBareKeyChar {c : Char}
    (h : Reader.isBareKeyChar c = true) : Inert c := by
  have hall : ∀ n : Fin 128, Reader.isBareKeyChar (.ofNat n) = true →
      isWordChar (.ofNat n) = true ∧ isQuote (.ofNat n) = false
        ∧ Char.ofNat n ≠ '\\'
        ∧ isForbidden (.ofNat n) = false ∧ Char.ofNat n ≠ '\r'
        ∧ Char.ofNat n ≠ '\uFEFF' := by
    decide +kernel
  have hc := hall ⟨c.toNat, toNat_lt_of_isBareKeyChar h⟩
  simp only [Char.ofNat_toNat] at hc
  obtain ⟨hword, hquote, hescape, hforbidden, hreturn, horder⟩ := hc h
  exact ⟨hword, hquote, hescape, hforbidden, hreturn, horder⟩

/-- A bare key stands for itself between quotes. -/
theorem Bare.inert {cs : List Char} (h : Bare cs) : ∀ c ∈ cs, Inert c :=
  fun c hc =>
  inert_of_isBareKeyChar (List.all_eq_true.1 h.2 c hc)

-- ================================================================== tokens

namespace Token

/-- The token written down. -/
def spell : Token → List Char
  | mark c => [c]
  | blank width => width
  | lineEnd => ['\n']
  | line s => '"' :: s.toList ++ ['"']
  | block s => ['"', '"', '"'] ++ s.toList ++ ['"', '"', '"']
  | word cs => cs

/-- The token is written as it is meant. -/
def Plain : Token → Prop
  | mark c => isMark c = true
  | blank width => width = [' ']
  | lineEnd => True
  | line s => Bare s.toList
  | block _ => False
  | word cs => Bare cs

/-- The first token ends where the second one begins. -/
def Apart : Token → Token → Prop
  | word _, mark _ | word _, blank _ | word _, lineEnd => True
  | word _, _ => False
  | blank _, blank _ => False
  | _, _ => True

/-- What follows does not go on with the token. -/
def Ends (t : Token) (rest : List Char) : Prop :=
  match t with
  | word _ => ∀ c ∈ rest.head?, isWordChar c = false
  | blank _ => ∀ c ∈ rest.head?, Quoted.isSpace c = false
  | _ => True

end Token

section

variable {t : Token} {rest : List Char}

/-- A run of characters ends where the next one is not of its kind. -/
private theorem takeWhile_of_ends {p : Char → Bool} {cs rest : List Char}
    (h : ∀ c ∈ cs, p c = true) (hrest : ∀ c ∈ rest.head?, p c = false) :
    (cs ++ rest).takeWhile p = cs ∧ (cs ++ rest).dropWhile p = rest := by
  rw [List.takeWhile_append_of_pos h, List.dropWhile_append_of_pos h]
  cases rest with
  | nil => simp
  | cons c more => simp [hrest c rfl]

private theorem cutLine?_cons (mark c : Char) (rest : List Char) :
    Quoted.cutLine? mark (c :: rest) =
      if c = mark then some ([], rest)
      else if c = '\n' then none
      else if c = '\\' ∧ mark = Quoted.escapingMark then
        match rest with
        | [] => none
        | d :: more =>
          if d = '\n' then none
          else (Quoted.cutLine? mark more).map fun (body, after) =>
            (c :: d :: body, after)
      else (Quoted.cutLine? mark rest).map fun (body, after) =>
        (c :: body, after) := by
  cases rest <;> rfl

/-- The text up to the closing mark, when it needs no escapes. -/
theorem cutLine?_of_inert {cs : List Char} (h : ∀ c ∈ cs, Inert c)
    (rest : List Char) :
    Quoted.cutLine? '"' (cs ++ '"' :: rest) = some (cs, rest) := by
  induction cs with
  | nil => rw [List.nil_append, cutLine?_cons, if_pos rfl]
  | cons c cs ih =>
      have hc := h c List.mem_cons_self
      have hquote : c ≠ '"' := by
        rintro rfl
        exact absurd hc.unquoted (by decide)
      have hline : c ≠ '\n' := by
        rintro rfl
        exact absurd hc.word (by decide)
      have hescape : ¬(c = '\\' ∧ '"' = Quoted.escapingMark) :=
        fun hboth => hc.unescaped hboth.1
      have hrest := ih fun d hd => h d (List.mem_cons_of_mem c hd)
      rw [List.cons_append, cutLine?_cons, if_neg hquote, if_neg hline,
        if_neg hescape, hrest]
      rfl

/-- Without a backslash nothing is unescaped. -/
private theorem unescape?_of_inert {cs : List Char} (h : ∀ c ∈ cs, Inert c) :
    Quoted.unescape? cs = some cs := by
  induction cs with
  | nil => rfl
  | cons c cs ih =>
      have hescape := (h c List.mem_cons_self).unescaped
      have hrest := ih fun d hd => h d (List.mem_cons_of_mem c hd)
      simp [Quoted.unescape?, hescape, hrest]

/-- Bare text between quotation marks is one token. -/
theorem quoted?_of_bare {s : String} (h : Bare s.toList) (rest : List Char) :
    quoted? '"' (s.toList ++ '"' :: rest) = some (.line s, rest) := by
  have hinert := h.inert
  have hsingle : ((s.toList ++ '"' :: rest).take 2 == ['"', '"']) = false := by
    obtain ⟨c, more, hs⟩ := List.exists_cons_of_ne_nil h.1
    have hquote : c ≠ '"' := by
      rintro rfl
      have hc := (hinert '"' (by rw [hs]; exact List.mem_cons_self)).unquoted
      exact absurd hc (by decide)
    rw [hs, List.cons_append, List.take_succ_cons]
    simp [hquote]
  have hallowed : s.toList.any isForbidden = false :=
    List.any_eq_false.2 fun c hc => Bool.eq_false_iff.1 (hinert c hc).allowed
  have hline : Quoted.line? '"' s.toList = some s := by
    show (Quoted.unescape? s.toList).map String.ofList = some s
    rw [unescape?_of_inert hinert, Option.map_some, String.ofList_toList]
  unfold quoted?
  rw [hsingle]
  simp only [cutLine?_of_inert hinert, hallowed, hline, Option.bind_eq_bind,
    Option.bind_some]
  rfl

/-- What a plain token begins with decides which it is. -/
theorem token?_spell (ht : t.Plain) (hends : t.Ends rest) :
    ∃ c more, t.spell = c :: more ∧ c ≠ '#'
      ∧ token? c (more ++ rest) = some (t, rest) := by
  cases t with
  | mark c =>
      have hne : c ≠ '#' := by
        rintro rfl
        have hmark : isMark '#' = true := ht
        exact absurd hmark (by decide)
      exact ⟨c, [], rfl, hne, if_pos ht⟩
  | blank width =>
      cases ht
      have hnone : ∀ c ∈ ([] : List Char), Quoted.isSpace c = true := nofun
      obtain ⟨htake, hdrop⟩ := takeWhile_of_ends hnone hends
      refine ⟨' ', [], rfl, by decide, ?_⟩
      show some (Token.blank
        (' ' :: (([] : List Char) ++ rest).takeWhile Quoted.isSpace),
        (([] : List Char) ++ rest).dropWhile Quoted.isSpace) = _
      rw [htake, hdrop]
  | lineEnd => exact ⟨'\n', [], rfl, by decide, rfl⟩
  | line s =>
      refine ⟨'"', s.toList ++ ['"'], rfl, by decide, ?_⟩
      have hquoted := quoted?_of_bare ht rest
      rw [List.append_assoc]
      exact hquoted
  | block s => exact ht.elim
  | word cs =>
      obtain ⟨c, more, rfl⟩ := List.exists_cons_of_ne_nil ht.1
      have hinert := ht.inert
      have hc := hinert c List.mem_cons_self
      -- what a word begins with is no mark, blank, line end or comment
      have hword : isMark c = false ∧ Quoted.isSpace c = false ∧ c ≠ '\n'
          ∧ c ≠ '#' := by
        simpa [isWordChar, and_assoc] using hc.word
      obtain ⟨hmark, hspace, hline, hcomment⟩ := hword
      have hmore : ∀ d ∈ more, isWordChar d = true := fun d hd =>
        (hinert d (List.mem_cons_of_mem c hd)).word
      obtain ⟨htake, hdrop⟩ := takeWhile_of_ends hmore hends
      refine ⟨c, more, rfl, hcomment, ?_⟩
      simp only [token?, hmark, hline, hspace, hc.unquoted, htake, hdrop,
        Bool.false_eq_true, if_false]

private theorem ends_nil (t : Token) : t.Ends [] := by
  cases t with
  | word cs | blank width =>
      intro c hc
      cases hc
  | mark c | lineEnd | line s | block s => trivial

private theorem isSpace_of_isMark {c : Char} (h : isMark c = true) :
    Quoted.isSpace c = false := by
  have hne : ∀ d : Char, isMark d = false → c ≠ d := by
    rintro d hd rfl
    exact absurd (h.symm.trans hd) nofun
  simp [Quoted.isSpace, hne ' ' (by decide), hne '\t' (by decide)]

/-- Tokens that stand apart end where the next one begins. -/
private theorem ends_of_apart {t' : Token} (ht' : t'.Plain) (h : t.Apart t')
    (rest : List Char) :
    t.Ends (t'.spell ++ rest) := by
  -- only words and blanks run on; what may follow them ends them
  cases t with
  | word cs =>
      intro c hc
      cases t' with
      | mark d =>
          cases hc
          have hmark : isMark c = true := ht'
          simp [isWordChar, hmark]
      | blank width =>
          cases ht'
          cases hc
          rfl
      | lineEnd =>
          cases hc
          rfl
      | line s | block s => exact h.elim
      | word ds => exact h.elim
  | blank width =>
      intro c hc
      cases t' with
      | mark d =>
          cases hc
          exact isSpace_of_isMark ht'
      | blank width => exact h.elim
      | lineEnd =>
          cases hc
          rfl
      | line s =>
          cases hc
          rfl
      | block s => exact ht'.elim
      | word ds =>
          obtain ⟨d, more, rfl⟩ := List.exists_cons_of_ne_nil ht'.1
          have hword := (ht'.inert d List.mem_cons_self).word
          cases hc
          simp_all [isWordChar]
  | mark c | lineEnd | line s | block s => trivial

/-- The tokens are found in what is written of them. -/
theorem tokensUpTo_spell {ts : List Token} (hplain : ∀ t ∈ ts, t.Plain)
    (hapart : ts.IsChain Token.Apart) {fuel : Nat}
    (hfuel : (ts.flatMap Token.spell).length ≤ fuel) :
    tokensUpTo fuel (ts.flatMap Token.spell) = some ts := by
  induction ts generalizing fuel with
  | nil => cases fuel <;> rfl
  | cons t ts ih =>
      obtain ⟨hhead, hchain⟩ := List.isChain_cons.1 hapart
      have ht := hplain t List.mem_cons_self
      have hrest : ∀ t ∈ ts, t.Plain :=
        fun t ht => hplain t (List.mem_cons_of_mem _ ht)
      have hends : t.Ends (ts.flatMap Token.spell) := by
        cases ts with
        | nil => exact ends_nil t
        | cons t' ts =>
            exact ends_of_apart (hrest t' List.mem_cons_self) (hhead t' rfl) _
      obtain ⟨c, more, hspell, hcomment, htoken⟩ := token?_spell ht hends
      rw [List.flatMap_cons, hspell, List.cons_append] at hfuel ⊢
      rw [List.length_cons, List.length_append] at hfuel
      cases fuel with
      | zero => omega
      | succ fuel =>
          have hmore :=
            ih hrest hchain (by omega : (ts.flatMap Token.spell).length ≤ fuel)
          rw [tokensUpTo, if_neg hcomment, htoken]
          simp [hmore]

/-- Written tokens have neither a carriage return nor a byte order mark. -/
theorem ne_of_mem_spell (ht : t.Plain) {c : Char} (hc : c ∈ t.spell) :
    c ≠ '\r' ∧ c ≠ '\uFEFF' := by
  have hbare : ∀ {cs : List Char}, Bare cs → c ∈ cs → c ≠ '\r' ∧ c ≠ '\uFEFF' :=
    fun hcs hmem =>
    ⟨(hcs.inert c hmem).unreturned, (hcs.inert c hmem).unordered⟩
  cases t with
  | mark d =>
      have hmark : isMark c = true := by
        obtain rfl := List.mem_singleton.1 hc
        exact ht
      constructor <;> rintro rfl <;> exact absurd hmark (by decide)
  | blank width =>
      cases ht
      obtain rfl := List.mem_singleton.1 hc
      decide
  | lineEnd =>
      obtain rfl := List.mem_singleton.1 hc
      decide
  | line s =>
      have hmem : c = '"' ∨ c ∈ s.toList := by
        simp only [Token.spell, List.cons_append, List.mem_cons,
          List.mem_append, List.not_mem_nil, or_false] at hc
        rcases hc with rfl | hs | rfl
        · exact .inl rfl
        · exact .inr hs
        · exact .inl rfl
      rcases hmem with rfl | hs
      · decide
      · exact hbare ht hs
  | block s => exact ht.elim
  | word cs => exact hbare ht hc

/-- Without a carriage return the lines are uniform. -/
private theorem uniformLines?_of_unreturned {cs : List Char}
    (h : ∀ c ∈ cs, c ≠ '\r') :
    uniformLines? cs = some cs := by
  induction cs with
  | nil => rfl
  | cons c cs ih =>
      have hc := h c List.mem_cons_self
      have hrest := ih fun d hd => h d (List.mem_cons_of_mem c hd)
      simp [uniformLines?, hc, hrest]

/-- Without a byte-order mark nothing is taken off. -/
private theorem withoutMark_of_unordered {cs : List Char}
    (h : ∀ c ∈ cs, c ≠ '\uFEFF') :
    withoutMark cs = cs := by
  cases cs with
  | nil => rfl
  | cons c cs =>
      have hc := h c List.mem_cons_self
      simp [withoutMark, hc]

/-- A text that spells tokens out has these tokens. -/
theorem tokens?_spell {ts : List Token} (hplain : ∀ t ∈ ts, t.Plain)
    (hapart : ts.IsChain Token.Apart) {s : String}
    (hs : s.toList = ts.flatMap Token.spell) :
    tokens? s = some ts := by
  have hchars : ∀ c ∈ s.toList, c ≠ '\r' ∧ c ≠ '\uFEFF' := by
    intro c hc
    rw [hs] at hc
    obtain ⟨t, ht, hspell⟩ := List.mem_flatMap.1 hc
    exact ne_of_mem_spell (hplain t ht) hspell
  unfold tokens?
  rw [withoutMark_of_unordered fun c hc => (hchars c hc).2,
    uniformLines?_of_unreturned fun c hc => (hchars c hc).1, hs]
  exact tokensUpTo_spell hplain hapart (Nat.le_refl _)

end

end ConsoleBoard.Toml
