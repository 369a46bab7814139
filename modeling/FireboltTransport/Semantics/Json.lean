/-
# Reading JSON text

A text is cut into tokens by an automaton that takes one character at a time, and the
tokens are read by a grammar that is decided by the next token.  Numbers and strings
are kept as they are written, so two readings are equal only when the texts are equal
up to the space between tokens.

The rules are those a text put together from pieces needs: how the tokens of a text
followed by a closing brace come from those of the text, how a derivation goes on
before further tokens, and that a text has one reading.
-/

import Mathlib.Data.List.Basic

namespace FireboltTransport.Semantics

/-- A JSON value. -/
inductive Json
  | null
  | bool (value : Bool)
  | number (lexeme : List Char)
  /-- A string with its escapes. -/
  | string (content : List Char)
  | array (elements : List Json)
  | object (members : List (List Char × Json))

namespace Json

inductive Token
  | null
  | bool (value : Bool)
  | number (lexeme : List Char)
  | string (content : List Char)
  | beginArray
  | endArray
  | beginObject
  | endObject
  | colon
  | comma
  deriving DecidableEq

/-! ## Numbers -/

/-- What of a number has been read. -/
inductive NumberMode
  | start
  | minus
  | zero
  | integer
  | point
  | fraction
  | exponent
  | sign
  | power
  deriving DecidableEq

def NumberMode.next : NumberMode → Char → Option NumberMode
  | .start, c =>
      if c = '-' then some .minus else if c = '0' then some .zero
      else if c.isDigit then some .integer else none
  | .minus, c => if c = '0' then some .zero else if c.isDigit then some .integer else none
  | .zero, c =>
      if c = '.' then some .point else if c = 'e' ∨ c = 'E' then some .exponent else none
  | .integer, c =>
      if c.isDigit then some .integer else if c = '.' then some .point
      else if c = 'e' ∨ c = 'E' then some .exponent else none
  | .point, c => if c.isDigit then some .fraction else none
  | .fraction, c =>
      if c.isDigit then some .fraction else if c = 'e' ∨ c = 'E' then some .exponent else none
  | .exponent, c =>
      if c = '+' ∨ c = '-' then some .sign else if c.isDigit then some .power else none
  | .sign, c | .power, c => if c.isDigit then some .power else none

/-- A number may end here. -/
def NumberMode.accepts : NumberMode → Bool
  | .zero | .integer | .fraction | .power => true
  | .start | .minus | .point | .exponent | .sign => false

def isNumber (lexeme : List Char) : Bool :=
  (lexeme.foldlM NumberMode.next NumberMode.start).any NumberMode.accepts

example : isNumber "-10.5e+3".toList = true ∧ isNumber "01".toList = false := by decide

/-! ## Tokens -/

/-- The token of a run of characters without space, punctuation and quotes. -/
def classify (word : List Char) : Option Token :=
  if word = "null".toList then some .null
  else if word = "true".toList then some (.bool true)
  else if word = "false".toList then some (.bool false)
  else if isNumber word then some (.number word)
  else none

/-- Where in a token the automaton is, with what it has read of it. -/
inductive Mode
  | between
  | word (read : List Char)
  | string (read : List Char)
  /-- After a backslash. -/
  | escape (read : List Char)
  /-- Before so many further hexadecimal digits. -/
  | unicode (read : List Char) (digits : ℕ)

def isSpace (c : Char) : Bool := c = ' ' ∨ c = '\t' ∨ c = '\n' ∨ c = '\r'

def punctuation (c : Char) : Option Token :=
  if c = '[' then some .beginArray
  else if c = ']' then some .endArray
  else if c = '{' then some .beginObject
  else if c = '}' then some .endObject
  else if c = ':' then some .colon
  else if c = ',' then some .comma
  else none

def isHexDigit (c : Char) : Bool :=
  c.isDigit ∨ ('a' ≤ c ∧ c ≤ 'f') ∨ ('A' ≤ c ∧ c ≤ 'F')

/-- What is read when the text, or a run of characters, ends. -/
def Mode.finish : Mode → Option (List Token)
  | .between => some []
  | .word read => (classify read).map fun token => [token]
  | .string _ | .escape _ | .unicode _ _ => none

/-- The tokens that end with the next character, and the mode after it. -/
def Mode.next (mode : Mode) (c : Char) : Option (List Token × Mode) :=
  match mode with
  | .between | .word _ =>
      if isSpace c then mode.finish.map fun tokens => (tokens, .between)
      else if c = '"' then mode.finish.map fun tokens => (tokens, .string [])
      else
        match punctuation c with
        | some token => mode.finish.map fun tokens => (tokens ++ [token], .between)
        | none =>
            match mode with
            | .word read => some ([], .word (read ++ [c]))
            | _ => some ([], .word [c])
  | .string read =>
      if c = '"' then some ([.string read], .between)
      else if c = '\\' then some ([], .escape (read ++ [c]))
      else if c.toNat < 32 then none
      else some ([], .string (read ++ [c]))
  | .escape read =>
      if c = 'u' then some ([], .unicode (read ++ [c]) 4)
      else if c ∈ ['"', '\\', '/', 'b', 'f', 'n', 'r', 't'] then some ([], .string (read ++ [c]))
      else none
  | .unicode read digits =>
      if isHexDigit c then
        if digits ≤ 1 then some ([], .string (read ++ [c]))
        else some ([], .unicode (read ++ [c]) (digits - 1))
      else none

/-- The tokens of a text. -/
def tokensFrom : Mode → List Char → Option (List Token)
  | mode, [] => mode.finish
  | mode, c :: rest =>
      (mode.next c).bind fun (read, mode) =>
        (tokensFrom mode rest).map fun tokens => read ++ tokens

def tokens (text : List Char) : Option (List Token) := tokensFrom .between text

/-- A closing brace ends whatever the text may end with. -/
theorem next_endObject {mode : Mode} {read : List Token} (hfinish : mode.finish = some read) :
    mode.next '}' = some (read ++ [.endObject], .between) := by
  cases mode with
  | between =>
      cases hfinish
      rfl
  | word word =>
      show ((Mode.word word).finish.map fun tokens =>
        (tokens ++ [Token.endObject], Mode.between)) = _
      rw [hfinish]
      rfl
  | string read | escape read | unicode read digits => cases hfinish

theorem tokensFrom_append_endObject {mode : Mode} {text : List Char} {read : List Token}
    (htext : tokensFrom mode text = some read) :
    tokensFrom mode (text ++ ['}']) = some (read ++ [.endObject]) := by
  induction text generalizing mode read with
  | nil =>
      have hnext := next_endObject htext
      show (mode.next '}').bind _ = _
      rw [hnext]
      simp [tokensFrom, Mode.finish]
  | cons c rest ih =>
      obtain ⟨⟨first, later⟩, hnext, hrest⟩ := Option.bind_eq_some_iff.mp htext
      obtain ⟨others, hothers, rfl⟩ := Option.map_eq_some_iff.mp hrest
      show (mode.next c).bind _ = _
      rw [hnext]
      show (tokensFrom later (rest ++ ['}'])).map _ = _
      rw [ih hothers]
      simp

/-- The character stands for itself in a string. -/
def isPlain (c : Char) : Bool := c ≠ '"' ∧ c ≠ '\\' ∧ 32 ≤ c.toNat

/-- A string without escapes. -/
theorem tokensFrom_string {name : List Char} (hname : ∀ c ∈ name, isPlain c) (read : List Char)
    (rest : List Char) :
    tokensFrom (.string read) (name ++ '"' :: rest) =
      (tokens rest).map fun later => .string (read ++ name) :: later := by
  induction name generalizing read with
  | nil =>
      show (tokensFrom .between rest).map _ = _
      simp [tokens]
  | cons c name ih =>
      have hplain := hname c List.mem_cons_self
      simp only [isPlain, decide_eq_true_eq] at hplain
      obtain ⟨hquote, hescape, hcontrol⟩ := hplain
      have hnext : (Mode.string read).next c = some ([], .string (read ++ [c])) := by
        simp [Mode.next, hquote, hescape, Nat.not_lt.mpr hcontrol]
      show ((Mode.string read).next c).bind _ = _
      rw [hnext]
      show (tokensFrom (.string (read ++ [c])) (name ++ '"' :: rest)).map _ = _
      rw [ih fun other hother => hname other (List.mem_cons_of_mem c hother)]
      simp [Function.comp_def]

/-- The opening of an object up to its first value. -/
theorem tokens_opening {name : List Char} (hname : ∀ c ∈ name, isPlain c) (rest : List Char) :
    tokens ('{' :: ' ' :: '"' :: (name ++ '"' :: ':' :: rest)) =
      (tokens rest).map fun read => .beginObject :: .string name :: .colon :: read := by
  have hstring := tokensFrom_string hname [] (':' :: rest)
  have hcolon : tokens (':' :: rest) = (tokens rest).map fun read => .colon :: read := rfl
  show (((tokensFrom (.string []) (name ++ '"' :: ':' :: rest)).map _).map _).map _ = _
  rw [hstring, hcolon]
  simp [Function.comp_def]

/-! ## The grammar -/

/-- What a derivation reads: a value, or what follows an opening bracket or brace up to the one
that closes it. -/
inductive Item
  | value (read : Json)
  | elements (read : List Json)
  | members (read : List (List Char × Json))

/-- The tokens begin with this item, and these are left. -/
inductive Derives : List Token → Item → List Token → Prop
  | null (rest : List Token) : Derives (.null :: rest) (.value .null) rest
  | bool (value : Bool) (rest : List Token) :
      Derives (.bool value :: rest) (.value (.bool value)) rest
  | number (lexeme : List Char) (rest : List Token) :
      Derives (.number lexeme :: rest) (.value (.number lexeme)) rest
  | string (content : List Char) (rest : List Token) :
      Derives (.string content :: rest) (.value (.string content)) rest
  | emptyArray (rest : List Token) :
      Derives (.beginArray :: .endArray :: rest) (.value (.array [])) rest
  | array (tokens : List Token) (elements : List Json) (rest : List Token)
      (helements : Derives tokens (.elements elements) rest) :
      Derives (.beginArray :: tokens) (.value (.array elements)) rest
  | emptyObject (rest : List Token) :
      Derives (.beginObject :: .endObject :: rest) (.value (.object [])) rest
  | object (tokens : List Token) (members : List (List Char × Json)) (rest : List Token)
      (hmembers : Derives tokens (.members members) rest) :
      Derives (.beginObject :: tokens) (.value (.object members)) rest
  | lastElement (tokens : List Token) (element : Json) (rest : List Token)
      (helement : Derives tokens (.value element) (.endArray :: rest)) :
      Derives tokens (.elements [element]) rest
  | element (tokens later : List Token) (element : Json) (elements : List Json)
      (rest : List Token) (helement : Derives tokens (.value element) (.comma :: later))
      (helements : Derives later (.elements elements) rest) :
      Derives tokens (.elements (element :: elements)) rest
  | lastMember (name : List Char) (tokens : List Token) (value : Json) (rest : List Token)
      (hvalue : Derives tokens (.value value) (.endObject :: rest)) :
      Derives (.string name :: .colon :: tokens) (.members [(name, value)]) rest
  | member (name : List Char) (tokens later : List Token) (value : Json)
      (members : List (List Char × Json)) (rest : List Token)
      (hvalue : Derives tokens (.value value) (.comma :: later))
      (hmembers : Derives later (.members members) rest) :
      Derives (.string name :: .colon :: tokens) (.members ((name, value) :: members)) rest

/-- The text is a JSON text of this value. -/
def Reads (text : List Char) (value : Json) : Prop :=
  ∃ read, tokens text = some read ∧ Derives read (.value value) []

/-- Tokens that follow do not change what is read. -/
theorem Derives.append {read rest : List Token} {item : Item} (hderives : Derives read item rest)
    (more : List Token) : Derives (read ++ more) item (rest ++ more) := by
  induction hderives with
  | null rest => exact .null _
  | bool value rest => exact .bool value _
  | number lexeme rest => exact .number lexeme _
  | string content rest => exact .string content _
  | emptyArray rest => exact .emptyArray _
  | array tokens elements rest _ ih => exact .array _ elements _ ih
  | emptyObject rest => exact .emptyObject _
  | object tokens members rest _ ih => exact .object _ members _ ih
  | lastElement tokens element rest _ ih => exact .lastElement _ element _ ih
  | element tokens later element elements rest _ _ ihelement ihelements =>
      exact .element _ _ element elements _ ihelement ihelements
  | lastMember name tokens value rest _ ih => exact .lastMember name _ value _ ih
  | member name tokens later value members rest _ _ ihvalue ihmembers =>
      exact .member name _ _ value members _ ihvalue ihmembers

/-- The two items are of one kind. -/
def Item.SameKind : Item → Item → Prop
  | .value _, .value _ | .elements _, .elements _ | .members _, .members _ => True
  | _, _ => False

/-- No element begins with the bracket that closes the array. -/
theorem not_derives_endArray {rest left : List Token} {elements : List Json} :
    ¬ Derives (.endArray :: rest) (.elements elements) left := by
  intro hderives
  cases hderives with
  | lastElement _ _ _ helement => cases helement
  | element _ _ _ _ _ helement _ => cases helement

/-- What tokens begin with is decided by them. -/
theorem Derives.unique {read rest : List Token} {item : Item} (hderives : Derives read item rest) :
    ∀ {other : Item} {left : List Token}, Derives read other left → item.SameKind other →
      other = item ∧ left = rest := by
  induction hderives with
  | null rest =>
      intro other left hother hkind
      cases hother with
      | null => exact ⟨rfl, rfl⟩
      | _ => exact hkind.elim
  | bool value rest =>
      intro other left hother hkind
      cases hother with
      | bool => exact ⟨rfl, rfl⟩
      | _ => exact hkind.elim
  | number lexeme rest =>
      intro other left hother hkind
      cases hother with
      | number => exact ⟨rfl, rfl⟩
      | _ => exact hkind.elim
  | string content rest =>
      intro other left hother hkind
      cases hother with
      | string => exact ⟨rfl, rfl⟩
      | _ => exact hkind.elim
  | emptyArray rest =>
      intro other left hother hkind
      cases hother with
      | emptyArray => exact ⟨rfl, rfl⟩
      | array _ _ _ helements => exact absurd helements not_derives_endArray
      | _ => exact hkind.elim
  | array tokens elements rest helements ih =>
      intro other left hother hkind
      cases hother with
      | emptyArray => exact absurd helements not_derives_endArray
      | array _ others _ hothers =>
          obtain ⟨hsame, hleft⟩ := ih hothers trivial
          cases hsame
          exact ⟨rfl, hleft⟩
      | _ => exact hkind.elim
  | emptyObject rest =>
      intro other left hother hkind
      cases hother with
      | emptyObject => exact ⟨rfl, rfl⟩
      | object _ _ _ hmembers => cases hmembers
      | _ => exact hkind.elim
  | object tokens members rest hmembers ih =>
      intro other left hother hkind
      cases hother with
      | emptyObject => cases hmembers
      | object _ others _ hothers =>
          obtain ⟨hsame, hleft⟩ := ih hothers trivial
          cases hsame
          exact ⟨rfl, hleft⟩
      | _ => exact hkind.elim
  | lastElement tokens element rest helement ih =>
      intro other left hother hkind
      cases hother with
      | lastElement _ _ _ hother =>
          obtain ⟨hsame, hleft⟩ := ih hother trivial
          cases hsame
          cases hleft
          exact ⟨rfl, rfl⟩
      | element _ _ _ _ _ hother _ =>
          obtain ⟨_, hleft⟩ := ih hother trivial
          cases hleft
      | _ => exact hkind.elim
  | element tokens later element elements rest helement helements ihelement ihelements =>
      intro other left hother hkind
      cases hother with
      | lastElement _ _ _ hother =>
          obtain ⟨_, hleft⟩ := ihelement hother trivial
          cases hleft
      | element _ _ _ _ _ hother hothers =>
          obtain ⟨hsame, hleft⟩ := ihelement hother trivial
          cases hsame
          cases hleft
          obtain ⟨hsame, hleft⟩ := ihelements hothers trivial
          cases hsame
          exact ⟨rfl, hleft⟩
      | _ => exact hkind.elim
  | lastMember name tokens value rest hvalue ih =>
      intro other left hother hkind
      cases hother with
      | lastMember _ _ _ _ hother =>
          obtain ⟨hsame, hleft⟩ := ih hother trivial
          cases hsame
          cases hleft
          exact ⟨rfl, rfl⟩
      | member _ _ _ _ _ _ hother _ =>
          obtain ⟨_, hleft⟩ := ih hother trivial
          cases hleft
      | _ => exact hkind.elim
  | member name tokens later value members rest hvalue hmembers ihvalue ihmembers =>
      intro other left hother hkind
      cases hother with
      | lastMember _ _ _ _ hother =>
          obtain ⟨_, hleft⟩ := ihvalue hother trivial
          cases hleft
      | member _ _ _ _ _ _ hother hothers =>
          obtain ⟨hsame, hleft⟩ := ihvalue hother trivial
          cases hsame
          cases hleft
          obtain ⟨hsame, hleft⟩ := ihmembers hothers trivial
          cases hsame
          exact ⟨rfl, hleft⟩
      | _ => exact hkind.elim

/-- A text has one value. -/
theorem Reads.unique {text : List Char} {value other : Json} (hreads : Reads text value)
    (hother : Reads text other) : other = value := by
  obtain ⟨read, hread, hderives⟩ := hreads
  obtain ⟨others, hothers, hderivesOther⟩ := hother
  obtain rfl := Option.some.inj (hread.symm.trans hothers)
  exact Item.value.inj (hderives.unique hderivesOther trivial).1

/-- A value with a name before it and a brace behind it is an object of one member. -/
theorem Reads.singleton {name text : List Char} {value : Json} (hname : ∀ c ∈ name, isPlain c)
    (hreads : Reads text value) :
    Reads ('{' :: ' ' :: '"' :: (name ++ '"' :: ':' :: (text ++ ['}'])))
      (.object [(name, value)]) := by
  obtain ⟨read, hread, hderives⟩ := hreads
  refine ⟨.beginObject :: .string name :: .colon :: (read ++ [.endObject]), ?_, ?_⟩
  · have hclosed : tokens (text ++ ['}']) = some (read ++ [.endObject]) :=
      tokensFrom_append_endObject hread
    rw [tokens_opening hname, hclosed]
    rfl
  · apply Derives.object
    apply Derives.lastMember
    exact hderives.append [.endObject]

/-- Without the value there is no reading. -/
theorem not_reads_missing {name : List Char} (hname : ∀ c ∈ name, isPlain c) (value : Json) :
    ¬ Reads ('{' :: ' ' :: '"' :: (name ++ '"' :: ':' :: ['}'])) value := by
  rintro ⟨read, hread, hderives⟩
  have hclosed : tokens ['}'] = some [.endObject] := rfl
  rw [tokens_opening hname, hclosed] at hread
  obtain rfl := Option.some.inj hread
  cases hderives with
  | object _ _ _ hmembers =>
      cases hmembers with
      | lastMember _ _ _ _ hvalue => cases hvalue
      | member _ _ _ _ _ _ hvalue _ => cases hvalue

end Json

end FireboltTransport.Semantics
