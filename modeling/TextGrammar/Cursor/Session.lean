import TextGrammar.Cursor.Basic

/-!
Sessions: some buffers and any number of cursors over them, kept by name and
moved by commands. A command that fails leaves every cursor as it was.
-/

namespace TextGrammar.Cursor

structure Session where
  buffers : List Buffer
  cursors : List (String × Cursor) := []
deriving DecidableEq, Repr

/-- Where a session has the text of a buffer from. -/
inductive Source where
  /-- A text in a buffer of its own. -/
  | own (text : String)
  /-- The buffer of an earlier source, shared with it. -/
  | shared (buffer : Nat)
deriving DecidableEq, Repr

/-- What can be asked of a session. Where two cursors are named, the first is
the one that moves or reads, except that `copy` fills its first from its
second. -/
inductive Command where
  | describe (buffer : Nat)
  | place (name : String) (buffer : Nat)
  | placeAt (name : String) (buffer pos stop : Nat)
  | copy (name other : String)
  | set (name : String) (pos stop : Nat)
  | setFrom (name other : String)
  | jump (name other : String)
  | peek (name : String)
  | advance (name : String)
  | skipBlanks (name : String)
  | seek (name : String) (recognizer : Recognizer) (other : String)
  | seekGroup (name other : String) (opening closing : Char)
  | equalsBytes (name text : String) (start stop : Nat)
  | sameBytes (name other : String)
  | position (name : String)
  | read (name : String)
  | slice (name : String) (buffer : Nat)
deriving DecidableEq, Repr

/-- What a command that succeeds answers. -/
inductive Reply where
  | done
  | truth (holds : Bool)
  | character (next : Option Char)
  | place (position : Position)
  | text (cursor : Cursor) (text : String)
  | slice (slice : Slice) (text : String)
  | source (buffer : Buffer)
deriving DecidableEq, Repr

namespace Session

/-- Adds the buffer of one more source. The key of a buffer of its own is the
number of buffers before it, so no two of these are the same. -/
def addSource? (buffers : List Buffer) : Source → Option (List Buffer)
  | .own text =>
      some (buffers ++ [{ chars := text.toList, key := buffers.length }])
  | .shared index => do
      let buffer ← buffers[index]?
      return buffers ++ [buffer]

/-- The session over some sources, or `none` if one shares a buffer that comes
no earlier. -/
def ofSources? (sources : List Source) : Option Session := do
  let buffers ← sources.foldlM addSource? []
  return { buffers }

/-- The first place of a buffer in the session. -/
def indexOf (session : Session) (buffer : Buffer) : Nat :=
  session.buffers.findIdx fun known => decide (known = buffer)

def find? (session : Session) (name : String) : Option Cursor :=
  session.cursors.lookup name

/-- Gives a name a cursor, in place of any it had. -/
def put (session : Session) (name : String) (cursor : Cursor) : Session :=
  if (session.find? name).isSome then
    { session with
      cursors := session.cursors.map fun (known, old) =>
        (known, if known = name then cursor else old) }
  else
    { session with cursors := session.cursors ++ [(name, cursor)] }

/-- What a command does: the reply, and the session that goes with it. -/
abbrev Effect : Type := Except Failure (Reply × Session)

/-- The effect of a command, or `none` if it names a cursor or a buffer that
the session does not have. -/
def effect? (session : Session) : Command → Option Effect
  | .describe index => do
      let buffer ← session.buffers[index]?
      return .ok (.source buffer, session)
  | .place name index => do
      let buffer ← session.buffers[index]?
      return .ok (.done, session.put name (whole buffer))
  | .placeAt name index pos stop => do
      let buffer ← session.buffers[index]?
      return do
        let cursor ← ofBounds buffer pos stop
        return (.done, session.put name cursor)
  | .copy name other => do
      let cursor ← session.find? other
      return .ok (.done, session.put name cursor)
  | .set name pos stop => do
      let cursor ← session.find? name
      return do
        let placed ← cursor.set pos stop
        return (.done, session.put name placed)
  | .setFrom name other => do
      let cursor ← session.find? name
      let target ← session.find? other
      return do
        let placed ← cursor.setFrom target
        return (.done, session.put name placed)
  | .jump name other => do
      let cursor ← session.find? name
      let target ← session.find? other
      return do
        let placed ← cursor.jump target
        return (.done, session.put name placed)
  | .peek name => do
      let cursor ← session.find? name
      return do
        let next ← cursor.peek
        return (.character next, session)
  | .advance name => do
      let cursor ← session.find? name
      return do
        let (next, moved) ← cursor.advance
        return (.character next, session.put name moved)
  | .skipBlanks name => do
      let cursor ← session.find? name
      return do
        let moved ← cursor.skipBlanks
        return (.done, session.put name moved)
  | .seek name recognizer other => do
      let cursor ← session.find? name
      let _ ← session.find? other
      match cursor.seek recognizer with
      | some found => return .ok (.truth true, session.put other found)
      | none => return .ok (.truth false, session)
  | .seekGroup name other opening closing => do
      let cursor ← session.find? name
      let _ ← session.find? other
      return do
        match ← cursor.seekGroup opening closing with
        | (some group, moved) =>
            return (.truth true, (session.put name moved).put other group)
        | (none, moved) =>
            return (.truth false, session.put name moved)
  | .equalsBytes name text start stop => do
      let cursor ← session.find? name
      return do
        let holds ← cursor.equalsBytes text.toList start stop
        return (.truth holds, session)
  | .sameBytes name other => do
      let cursor ← session.find? name
      let target ← session.find? other
      return do
        let holds ← cursor.sameBytes target
        return (.truth holds, session)
  | .position name => do
      let cursor ← session.find? name
      return .ok (.place cursor.position, session)
  | .read name => do
      let cursor ← session.find? name
      return do
        let text ← cursor.text
        return (.text cursor text, session)
  | .slice name index => do
      let cursor ← session.find? name
      let buffer ← session.buffers[index]?
      return do
        let part ← Cursor.slice buffer cursor
        let text ← part.text
        return (.slice part text, session)

/-- The session after a command, unchanged if the command fails. -/
def step (session : Session) (command : Command) : Session :=
  match session.effect? command with
  | some (.ok (_, next)) => next
  | _ => session

def run (session : Session) (commands : List Command) : Session :=
  commands.foldl step session

end Session

end TextGrammar.Cursor
