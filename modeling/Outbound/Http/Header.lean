/-!
# Header fields

Names are tokens and compare without regard to case, so they are kept in lower case. A value may
hold every character but control characters, of which only the tab is allowed.
-/

namespace Outbound

/-- Header fields by lower-case name. -/
abbrev Headers := List (String × String)

namespace Header

/-- A letter, a digit or one of the marks of a token. -/
def isNameChar (c : Char) : Bool :=
  c.isAlphanum || "!#$%&'*+-.^_\x60|~".toList.contains c

/-- The name in lower case, if it is one. -/
def name? (s : String) : Option String :=
  if s.isEmpty || s.length > 65535 || !s.toList.all isNameChar then none
  else some (String.ofList (s.toList.map Char.toLower))

def isValueChar (c : Char) : Bool :=
  (32 ≤ c.toNat && c.toNat != 127) || c == '\t'

def isValue (s : String) : Bool :=
  s.toList.all isValueChar

end Header

namespace Headers

def get? (headers : Headers) (name : String) : Option String :=
  headers.lookup name

/-- Sets a field in place of one of the same name. -/
def insert (headers : Headers) (name value : String) : Headers :=
  headers.filter (·.1 != name) ++ [(name, value)]

@[simp] theorem get?_insert_self (headers : Headers) (name value : String) :
    (headers.insert name value).get? name = some value := by
  simp only [get?, insert]
  induction headers with
  | nil => simp
  | cons head rest ih =>
    obtain ⟨key, v⟩ := head
    by_cases h : key = name
    · simpa [h] using ih
    · have hne : (name == key) = false := by simpa using Ne.symm h
      simp only [List.filter_cons, bne_iff_ne, ne_eq, h, not_false_eq_true, if_true,
        List.cons_append, List.lookup_cons, hne]
      exact ih

/-- Setting a field leaves the fields of other names as they were. -/
theorem get?_insert_of_ne (headers : Headers) (value : String) {name other : String}
    (h : other ≠ name) : (headers.insert name value).get? other = headers.get? other := by
  have hother : (other == name) = false := by simpa using h
  simp only [get?, insert]
  induction headers with
  | nil => simp only [List.filter_nil, List.nil_append, List.lookup_cons, hother, List.lookup_nil]
  | cons head rest ih =>
    obtain ⟨key, v⟩ := head
    by_cases hkey : key = name
    · subst hkey
      simp only [List.filter_cons, bne_self_eq_false, Bool.false_eq_true, if_false, ih,
        List.lookup_cons, hother]
    · simp only [List.filter_cons, bne_iff_ne, ne_eq, hkey, not_false_eq_true, if_true,
        List.cons_append, List.lookup_cons, ih]

/-- Sets a field, unless the value is none of a field. -/
def insertValid (headers : Headers) (name value : String) : Headers :=
  if Header.isValue value then headers.insert name value else headers

/-- Sets all fields of the second list in the first. -/
def extend (headers more : Headers) : Headers :=
  more.foldl (fun hs (name, value) ↦ hs.insert name value) headers

end Headers

end Outbound
