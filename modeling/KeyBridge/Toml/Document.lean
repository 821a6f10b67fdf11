import KeyBridge.Toml.Value

/-!
# Putting documents together

What the headers and the settings of a document add to its table, one after the other.

* `define` — a document with one more value, under the header that it stands under;
* `openTable` and `openElement` — a document with one more header.
-/

namespace KeyBridge.Toml

/-- The entries with another value for a key. -/
def replace (key : Key) (v : Value) (es : Entries) : Entries :=
  es.map fun e => if e.1 = key then (key, v) else e

/-- Changes the table at a path. A table that is missing is made with the form `missing`. In an
array of tables the path leads into the last one. With `closed`, a table with a header of its own
may not be entered; a table in braces never may. -/
def update (missing : TableForm) (closed : Bool)
    (change : TableForm → Entries → Option (TableForm × Entries)) :
    List Key → TableForm → Entries → Option (TableForm × Entries)
  | [], form, es => change form es
  | key :: path, form, es => do
    match es.lookup key with
    | none =>
      let (f, inner) ← update missing closed change path missing []
      some (form, es ++ [(key, .table f inner)])
    | some (.table f inner) =>
      if f = .inline || (closed && f = .header) then none
      else
        let (f, inner) ← update missing closed change path f inner
        some (form, replace key (.table f inner) es)
    | some (.array true items) =>
      match items.reverse with
      | .table f inner :: before =>
        let (f, inner) ← update missing closed change path f inner
        some (form, replace key (.array true (before.reverse ++ [.table f inner])) es)
      | _ => none
    | some _ => none

/-- Adds a value under a key with dots to a table. Only a table that was made by such keys takes
more of them. -/
def setDotted (path : List Key) (key : Key) (v : Value) (form : TableForm) (es : Entries) :
    Option (TableForm × Entries) :=
  update .dotted true (fun f inner =>
    if (f = .dotted) = (path ≠ []) ∧ inner.lookup key = none then some (f, inner ++ [(key, v)])
    else none) path form es

/-- Adds a value to the table under a header. -/
def define (header path : List Key) (key : Key) (v : Value) (es : Entries) : Option Entries :=
  (update .implied false (setDotted path key v) header .header es).map Prod.snd

/-- The entries without that of a key. -/
def erase (key : Key) (es : Entries) : Entries := es.filter fun e => e.1 ≠ key

/-- Adds the header of a table. A table may have one header only, and its place is where that
stands. -/
def openTable (path : List Key) (key : Key) (es : Entries) : Option Entries :=
  let change (f : TableForm) (inner : Entries) :=
    match inner.lookup key with
    | none => some (f, inner ++ [(key, Value.table .header [])])
    | some (.table .implied more) => some (f, erase key inner ++ [(key, .table .header more)])
    | some _ => none
  (update .implied false change path .header es).map Prod.snd

/-- Adds the header of one more table of an array. -/
def openElement (path : List Key) (key : Key) (es : Entries) : Option Entries :=
  let element := Value.table .header []
  let change (f : TableForm) (inner : Entries) :=
    match inner.lookup key with
    | none => some (f, inner ++ [(key, Value.array true [element])])
    | some (.array true items) => some (f, replace key (.array true (items ++ [element])) inner)
    | some _ => none
  (update .implied false change path .header es).map Prod.snd

end KeyBridge.Toml
