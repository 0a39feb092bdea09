import ClusterKeeper.Text

/-!
Where the data of a peer are mounted, and how much of it a datastore may hold: a limit in units of
1000, where the volume's size may be in units of 1024.
-/

namespace ClusterKeeper.MountPath

def scripts : String := "/custom"

def ipfsData : String := "/data/ipfs"

def clusterData : String := "/data/ipfs-cluster"

end ClusterKeeper.MountPath

namespace ClusterKeeper.Storage

def isAmountChar (c : Char) : Bool := c.isDigit || c = '.'

/-- The unit of the limit for a suffix of the size. -/
def unit? (suffix : List Char) : Option String :=
  if suffix = ['K', 'i'] ∨ suffix = ['k'] then some "KB"
  else if suffix = ['M', 'i'] ∨ suffix = ['M'] then some "MB"
  else if suffix = ['G', 'i'] ∨ suffix = ['G'] then some "GB"
  else if suffix = ['T', 'i'] ∨ suffix = ['T'] then some "TB"
  else if suffix = ['P', 'i'] ∨ suffix = ['P'] then some "PB"
  else if suffix = [] then some "B"
  else none

/-- The limit for a volume of the given size: the same amount in the unit of its suffix. A size
without an amount or with another suffix is kept as it is. -/
def datastoreMax (quantity : String) : String :=
  let size := Text.trimChars quantity.toList
  let amount := size.takeWhile isAmountChar
  match unit? (size.dropWhile isAmountChar) with
  | some unit => if amount = [] then String.ofList size else String.ofList amount ++ unit
  | none => String.ofList size

end ClusterKeeper.Storage
