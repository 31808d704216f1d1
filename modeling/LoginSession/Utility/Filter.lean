import LoginSession.Fault.System
import LoginSession.Utility.Heading
import LoginSession.Utility.Listing
import LoginSession.Utility.Quoting
import LoginSession.Utility.Search
import LoginSession.Utility.Translate

namespace LoginSession.Utility

open Host (Octets)

/-- What a program reads: what it was given as its standard input, a file, or all files below a
directory. The empty path is the working directory, whose files have no path before their names. -/
inductive Input where
  | standard
  | file (name : Octets)
  | tree (path : Octets)
  deriving DecidableEq

inductive Trouble where
  | opening
  | reading
  deriving DecidableEq

inductive Filter where
  | listing (s : Listing.State)
  | heading (s : Heading.State)
  | translating (table : Translate.Table) (last : Option Char)
  | searching (s : Search.State)

/-- What comes of a step: a filter to go on with, what is printed, what is said of the input, and
how many of the last bytes read are left for others. -/
structure Fed where
  filter : Filter
  output : List UInt8 := []
  remark : Option Octets := none
  surplus : Nat := 0

namespace Filter

def nameOf (f : Filter) (input : Input) : Octets :=
  match f, input with
  | .searching s, .standard => s.request.label
  | .heading _, .standard => "standard input".toList
  | _, .standard => ['-']
  | _, .file name | _, .tree name => name

def start (f : Filter) (input : Input) (size : Option Nat) : Fed :=
  match f with
  | .heading s =>
    let (s, title) := Heading.start s (nameOf f input)
    { filter := .heading s, output := Octets.toBytes title }
  | .searching s => { filter := .searching (Search.start s (nameOf f input) size) }
  | f => { filter := f }

def feed (f : Filter) (bytes : List UInt8) : Fed :=
  match f with
  | .listing s =>
    if s.style = {} then { filter := f, output := bytes }
    else
      let (s, text) := Listing.feed s (Octets.ofBytes bytes)
      { filter := .listing s, output := Octets.toBytes text }
  | .heading s =>
    let (s, output, surplus) := Heading.feed s bytes
    { filter := .heading s, output, surplus }
  | .translating table last =>
    let (output, last) := Translate.apply table last [] bytes
    { filter := .translating table last, output }
  | .searching s =>
    let (s, text) := Search.feed s bytes
    { filter := .searching s, output := Octets.toBytes text }

def endInput (f : Filter) : Fed :=
  match f with
  | .listing s =>
    let (s, text) := Listing.finish s
    { filter := .listing s, output := Octets.toBytes text }
  | .heading s =>
    let (next, output) := Heading.finish s
    { filter := .heading next, output, surplus := s.held.flatten.length - output.length }
  | .translating table last => { filter := .translating table last }
  | .searching s =>
    let (s, text, remark) := Search.finish s
    { filter := .searching s, output := Octets.toBytes text, remark, surplus := Search.surplus s }

def isInputDone (f : Filter) : Bool :=
  match f with
  | .heading s => Heading.isDone s
  | .searching s => s.isOver
  | _ => false

def isDone (f : Filter) : Bool :=
  match f with
  | .searching s => s.request.quiet && s.hasSucceeded
  | _ => false

def readLimit (f : Filter) : Nat :=
  match f with
  | .heading s =>
    if s.request.lines || s.request.fromEnd then 8192 else min 8192 s.left
  | _ => 65536

def isRecursive (f : Filter) : Bool :=
  match f with
  | .searching s => s.request.recursive
  | _ => false

def skipsDirectories (f : Filter) : Bool :=
  match f with
  | .searching s => s.request.skipsDirectories
  | _ => false

def refuses? (f : Filter) (input : Input) (position size : Nat) : Option Octets :=
  match f with
  | .listing _ =>
    if position < size then
      some (Quoting.wordIfNeeded (nameOf f input) ++ ": input file is output file".toList)
    else none
  | .searching s =>
    if s.request.showsLines && s.request.limit ≠ some 1 then
      some (nameOf f input ++ ": input file is also the output".toList)
    else none
  | _ => none

def complaint? (f : Filter) (input : Input) (trouble : Trouble) (e : Errno) : Option Octets :=
  let reason := ": ".toList ++ e.text.toList
  match f with
  | .listing _ => some (Quoting.wordIfNeeded (nameOf f input) ++ reason)
  | .heading s =>
    let name := Quoting.word (nameOf f input)
    some <|
      match trouble, input with
      | .opening, .standard =>
        (if s.request.fromEnd then "cannot fstat " else "error reading ").toList ++ name ++ reason
      | .opening, _ => "cannot open ".toList ++ name ++ " for reading".toList ++ reason
      | .reading, _ => "error reading ".toList ++ name ++ reason
  | .translating _ _ => some ("read error".toList ++ reason)
  | .searching s => if s.request.silent then none else some (nameOf f input ++ reason)

def lastComplaint? (f : Filter) : Option Octets :=
  let reason := ": ".toList ++ Errno.badDescriptor.text.toList
  match f with
  | .listing _ => some ("closing standard input".toList ++ reason)
  | .heading _ => some ('-' :: reason)
  | _ => none

/-- A search reports whether it selected anything, and a fault before that. -/
def status (f : Filter) (failed : Bool) : Nat :=
  match f with
  | .searching s =>
    if f.isDone then 0 else if failed then 2 else if s.hasSucceeded then 0 else 1
  | _ => if failed then 1 else 0

end Filter

end LoginSession.Utility
