import CounterLang.Text.Basic

/-!
# Words of the language

Eleven words have a meaning of their own: seven keywords, one of which opens every statement, and
four reserved words. None of them can name a variable.

## Main definitions

* `Keyword`, `Reserved`: the words, with their spelling.
* `isReserved`: whether a token is one of the eleven.
* `opensBlock`, `closesBlock`: the tokens that start and end a block.
-/

namespace CounterLang

/-- The words that may open a statement. -/
inductive Keyword where
  | clear
  | increment
  | decrement
  | loop
  /-- Opens a conditional, which has no meaning yet. -/
  | conditional
  /-- Opens a function, which has no meaning yet. -/
  | function
  | print
deriving DecidableEq, Repr

/-- The words that occur inside or after a statement and open none. -/
inductive Reserved where
  /-- The negation in a loop header. -/
  | negation
  /-- The word that ends a loop header. -/
  | body
  /-- The word that closes a block. -/
  | close
  /-- A word kept for later use. -/
  | member
deriving DecidableEq, Repr

namespace Keyword

/-- All keywords, in the order of their declaration. -/
def all : List Keyword := [clear, increment, decrement, loop, conditional, function, print]

def text : Keyword → Text
  | clear => "clear"
  | increment => "incr"
  | decrement => "decr"
  | loop => "while"
  | conditional => "if"
  | function => "func"
  | print => "print"

/-- The keyword with the given spelling. -/
def ofText? (token : Text) : Option Keyword := all.find? fun keyword => keyword.text == token

theorem mem_all (keyword : Keyword) : keyword ∈ all := by cases keyword <;> decide

@[simp] theorem ofText?_text (keyword : Keyword) : ofText? keyword.text = some keyword := by
  cases keyword <;> decide

theorem text_of_ofText?_eq_some {token : Text} {keyword : Keyword}
    (h : ofText? token = some keyword) : keyword.text = token := by
  simpa using List.find?_some h

/-- Whether the keyword opens a block that `end` closes. -/
def opens : Keyword → Bool
  | loop | conditional | function => true
  | clear | increment | decrement | print => false

end Keyword

namespace Reserved

/-- All reserved words, in the order of their declaration. -/
def all : List Reserved := [negation, body, close, member]

def text : Reserved → Text
  | negation => "not"
  | body => "do"
  | close => "end"
  | member => "of"

theorem mem_all (word : Reserved) : word ∈ all := by cases word <;> decide

end Reserved

/-- Whether a token is one of the eleven words of the language, which name no variable. -/
def isReserved (token : Text) : Bool :=
  Reserved.all.any (·.text == token) || Keyword.all.any (·.text == token)

def opensBlock (token : Text) : Bool :=
  match Keyword.ofText? token with
  | some keyword => keyword.opens
  | none => false

def closesBlock (token : Text) : Bool := token == Reserved.close.text

/-- The tokens that follow the guard in a loop header. -/
def headerTail : List Text := [Reserved.negation.text, "0", Reserved.body.text]

theorem opensBlock_eq_false_of_closesBlock {token : Text} (h : closesBlock token = true) :
    opensBlock token = false := by
  have : token = Reserved.close.text := by simpa [closesBlock] using h
  subst this
  decide

end CounterLang
