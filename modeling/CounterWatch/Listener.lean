import CounterWatch.FileTree
import CounterWatch.Journal

/-!
# The listener

The socket at which datagrams come in. A file that is left over at its path is removed first.

* `Listener.bind` opens the socket, and `Listener.close` removes it.
-/

namespace CounterWatch

namespace Listener

/-- How much of a datagram is received. -/
def bufferSize : Nat := 4096

/-- What is received of a datagram. -/
def receive (datagram : List UInt8) : List UInt8 := datagram.take bufferSize

/-- The count of bytes that the address of a socket is shorter than. -/
def addressLimit : Nat := 108

/-- The outcome of opening the socket: the files after it, what it says, and why it failed if it
did. -/
structure Opening where
  files : FileTree
  entries : List JournalEntry
  failure : Option PathError

/-- Opens the socket at a path that nothing stands at. Without a path the socket has no place. -/
def openAt (path : String) : FileTree.Change Unit := do
  FileTree.makeParents path
  if addressLimit ≤ path.utf8ByteSize then throw .addressTooLong
  unless path.isEmpty do FileTree.openSocket path

/-- Opens the socket at a path. A failure is told of after what was done before it. -/
def bind (path : String) (files : FileTree) : Opening :=
  let rest (files : FileTree) (entries : List JournalEntry) : Opening :=
    match (openAt path).run files with
    | .ok _ files => { files, entries := entries ++ [.listening path], failure := none }
    | .error error files => { files, entries, failure := some error }
  match (FileTree.remove path).run files with
  | .ok _ files => rest files [.staleSocketRemoved path]
  | .error .notFound files => rest files []
  | .error error files => { files, entries := [], failure := some error }

/-- The files after the socket at a path is removed. -/
def close (path : String) (files : FileTree) : FileTree :=
  match (FileTree.remove path).run files with
  | .ok _ files | .error _ files => files

end Listener

end CounterWatch
