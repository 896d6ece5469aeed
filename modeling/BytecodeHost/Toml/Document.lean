import BytecodeHost.Toml.Reader

/-!
# TOML documents

What the lines of a document mean together: a table of values, in which every key is set once.

A table that only came into being because a longer key needed it is *implicit*: a header or a pair
may still claim it once, and then finds its contents in place. If an array of values is or was
written at the key, the value that claims it replaces what is there.

## Main definitions

* `Toml.Value`: a value with its tables put together.
* `Toml.Document.ofLines?`: the document that lines describe.
* `Toml.parse?`: the table that a byte string describes.
-/

namespace BytecodeHost

namespace Toml

/-- A value of a document. -/
inductive Value where
  | text (s : String)
  | integer (n : Int)
  | real (literal : String)
  | boolean (b : Bool)
  | moment (literal : String)
  /-- An array that was written as a value. -/
  | array (items : List Value)
  /-- A table. -/
  | table (entries : List (String × Value))
  /-- An array of tables that was written header by header; the last one is open. -/
  | tables (items : List (List (String × Value)))

/-- The entries of a table in the order of their keys' first use. -/
abbrev Entries : Type := List (String × Value)

namespace Entries

/-- Sets a key. -/
def set (entries : Entries) (key : String) (v : Value) : Entries :=
  if (entries.lookup key).isSome then
    entries.map fun e => if e.1 = key then (key, v) else e
  else entries ++ [(key, v)]

/-- The entries of the table that a value opens: the table itself, or the last of an array of
tables. -/
def opened? : Value → Option Entries
  | .table entries => some entries
  | .tables items => items.getLast?
  | _ => none

/-- A value whose open table has other entries. -/
def reopen (entries : Entries) : Value → Value
  | .tables items => .tables (items.dropLast ++ [entries])
  | _ => .table entries

/-- The entries of the table at a path. -/
def at? (entries : Entries) : Key → Option Entries
  | [] => some entries
  | k :: path =>
    match entries.lookup k with
    | none => none
    | some v =>
      match opened? v with
      | none => none
      | some inner => at? inner path

/-- Changes the entries of the table at a path, which must be there. -/
def modifyAt? (f : Entries → Option Entries) (entries : Entries) : Key → Option Entries
  | [] => f entries
  | k :: path =>
    match entries.lookup k with
    | none => none
    | some v =>
      match opened? v with
      | none => none
      | some inner => (modifyAt? f inner path).map fun inner => set entries k (reopen inner v)

/-- Sets a key below tables that are made where they are missing. -/
def setDeep? (entries : Entries) (name : String) (v : Value) : (parents : Key) → Option Entries
  | [] => some (set entries name v)
  | k :: parents =>
    match entries.lookup k with
    | none => (setDeep? [] name v parents).map fun inner => set entries k (.table inner)
    | some (.table inner) =>
      (setDeep? inner name v parents).map fun inner => set entries k (.table inner)
    | some _ => none

end Entries

/-- A document under construction. -/
structure Document where
  /-- The tables so far. -/
  root : Entries := []
  /-- The keys of implicit tables. -/
  implicit : List Key := []
  /-- The keys at which an array of values was written last. -/
  arrays : List Key := []

namespace Document

/-- Marks the table at a key as implicit. -/
def addImplicit (d : Document) (key : Key) : Document :=
  { d with implicit := key :: d.implicit }

/-- Takes the mark of an implicit table away. -/
def removeImplicit (d : Document) (key : Key) : Document :=
  { d with implicit := d.implicit.filter (· ≠ key) }

/-- Notes whether a key in a table holds an array of values. An empty name stands for the table
itself. -/
def setKind (d : Document) (context : Key) (name : String) (isArray : Bool) : Document :=
  let path := if name = "" then context else context ++ [name]
  let key := if path = [] then [""] else path
  let others := d.arrays.filter (· ≠ key)
  { d with arrays := if isArray then key :: others else others }

/-- Sets a key of the table at a path. -/
def set? (d : Document) (context : Key) (name : String) (v : Value) : Option Document :=
  match d.root.at? context with
  | none => none
  | some entries =>
    let key := context ++ [name]
    let write (d : Document) : Option Document :=
      (d.root.modifyAt? (fun es => some (es.set name v)) context).map fun root => { d with root }
    if (entries.lookup name).isNone then write d
    else if !d.implicit.contains key then none
    else if d.arrays.contains key then write (d.removeImplicit key)
    else some (d.removeImplicit key)

/-- Makes the tables on the way to a key where they are missing; `done` is the way so far. -/
def openParents? (d : Document) (done : Key) : (parents : Key) → Option Document
  | [] => some d
  | k :: parents =>
    let path := done ++ [k]
    match d.root.at? done with
    | none => none
    | some entries =>
      match entries.lookup k with
      | none =>
        match d.root.modifyAt? (fun es => some (es.set k (.table []))) done with
        | none => none
        | some root => openParents? ({ d with root }.addImplicit path) path parents
      | some v => if (Entries.opened? v).isSome then openParents? d path parents else none

/-- Opens the table at a key. -/
def openTable? (d : Document) (key : Key) : Option Document := do
  let d ← d.openParents? [] key.dropLast
  d.set? key.dropLast (key.getLastD "") (.table [])

/-- Opens the next table of the array of tables at a key. -/
def openItem? (d : Document) (key : Key) : Option Document := do
  let d ← d.openParents? [] key.dropLast
  let name := key.getLastD ""
  let root ← d.root.modifyAt? (fun es =>
    match es.lookup name with
    | none => some (es.set name (.tables [[]]))
    | some (.tables items) => some (es.set name (.tables (items ++ [[]])))
    | some _ => none) key.dropLast
  return { d with root }

/-- Opens the tables that the parts of a pair's key before the last one name. -/
def descend? (d : Document) (context : Key) : (parents : Key) → Option (Document × Key)
  | [] => some (d, context)
  | k :: parents =>
    let path := context ++ [k]
    match (d.addImplicit path).openTable? path with
    | none => none
    | some d => descend? d path parents

/-- Whether a value is written as an array. -/
def isArray : Expr → Bool
  | .array _ => true
  | _ => false

mutual

/-- The value of an expression at a key of the table at a path. The pairs of a table in braces are
entered into the document on the way. -/
def value? (d : Document) (context : Key) (name : String) (inArray : Bool) :
    Expr → Option (Document × Value)
  | .text s => some (d, .text s)
  | .integer n => some (d, .integer n)
  | .real s => some (d, .real s)
  | .boolean b => some (d, .boolean b)
  | .moment s => some (d, .moment s)
  | .array items =>
    (values? (d.setKind context name true) context name items).map fun (d, vs) => (d, .array vs)
  | .table written =>
    let path := context ++ [name]
    let marked := d.addImplicit path
    match if inArray then marked.openItem? path else marked.openTable? path with
    | none => none
    | some d => (pairs? d path [] written).map fun (d, es) => (d, .table es)

/-- The values of the items of an array. -/
def values? (d : Document) (context : Key) (name : String) :
    List Expr → Option (Document × List Value)
  | [] => some (d, [])
  | e :: rest =>
    match value? d context name true e with
    | none => none
    | some (d, v) => (values? d context name rest).map fun (d, vs) => (d, v :: vs)

/-- Enters pairs into the table at a path, and collects them in a table of their own. -/
def pairs? (d : Document) (context : Key) (collected : Entries) :
    List (Key × Expr) → Option (Document × Entries)
  | [] => some (d, collected)
  | (key, e) :: rest =>
    match d.descend? context key.dropLast with
    | none => none
    | some (d, inner) =>
      match value? d inner (key.getLastD "") false e with
      | none => none
      | some (d, v) =>
        match d.set? inner (key.getLastD "") v,
            collected.setDeep? (key.getLastD "") v key.dropLast with
        | some d, some collected =>
          pairs? (d.setKind inner (key.getLastD "") (isArray e)) context collected rest
        | _, _ => none

end

/-- Enters lines into a document in which the table at a path is open. -/
def enter? (d : Document) (context : Key) : List Line → Option Document
  | [] => some d
  | .header key :: rest =>
    match d.openTable? key with
    | none => none
    | some d => enter? (d.setKind key "" false) key rest
  | .itemHeader key :: rest =>
    match d.openItem? key with
    | none => none
    | some d => enter? (d.setKind key "" false) key rest
  | .pair key e :: rest =>
    match d.pairs? context [] [(key, e)] with
    | none => none
    | some (d, _) => enter? d context rest

/-- The document that lines describe. -/
def ofLines? (lines : List Line) : Option Document :=
  enter? {} [] lines

end Document

/-- The table that a byte string describes. -/
def parse? (b : ByteArray) : Option Entries := do
  let lines ← readLines? b
  let d ← Document.ofLines? lines
  return d.root

end Toml

end BytecodeHost
