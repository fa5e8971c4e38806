/-!
# HTTP verbs

The seven verbs that a route can be bound to.

**Reading.**  A verb is read without regard to letter case, by its full upper-case form: a character
that stands for several capitals counts as all of them.
-/

namespace RpcGateway

/-- A verb that a route can be bound to. -/
inductive Verb
  | get
  | post
  | put
  | patch
  | delete
  | head
  | options
  deriving DecidableEq, Repr

namespace Verb

def all : List Verb :=
  [get, post, put, patch, delete, head, options]

def text : Verb → String
  | get => "GET"
  | post => "POST"
  | put => "PUT"
  | patch => "PATCH"
  | delete => "DELETE"
  | head => "HEAD"
  | options => "OPTIONS"

/-- The characters whose upper-case form consists of ASCII letters, ASCII itself apart. -/
def capitals : List (Char × List Char) :=
  [('ı', ['I']), ('ſ', ['S']), ('ß', ['S', 'S']), ('ﬀ', ['F', 'F']), ('ﬁ', ['F', 'I']),
    ('ﬂ', ['F', 'L']), ('ﬃ', ['F', 'F', 'I']), ('ﬄ', ['F', 'F', 'L']), ('ﬅ', ['S', 'T']),
    ('ﬆ', ['S', 'T'])]

/-- The upper-case form of a character as far as verbs can tell. -/
def upper (c : Char) : List Char :=
  match capitals.lookup c with
  | some cs => cs
  | none => [c.toUpper]

/-- The verb that a text names, whatever its letter case. -/
def ofText? (s : String) : Option Verb :=
  let capital := s.toList.flatMap upper
  all.find? fun v => v.text.toList == capital

/-- Different verbs have different texts. -/
theorem text_injective (v w : Verb) : v.text = w.text → v = w := by
  cases v <;> cases w <;> decide

/-- Every verb is read back from its text. -/
theorem ofText?_text (v : Verb) : ofText? v.text = some v := by
  cases v <;> decide

/-- A text names a verb if and only if its upper-case form is the text of the verb. -/
theorem ofText?_eq_some_iff {s : String} {v : Verb} :
    ofText? s = some v ↔ v.text.toList = s.toList.flatMap upper := by
  constructor
  · intro h
    have hfound := List.find?_some h
    exact eq_of_beq hfound
  · intro h
    unfold ofText?
    rw [← h]
    cases v <;> decide

end Verb
end RpcGateway
