import JavaSource.Disk.Path
import JavaSource.Output

/-!
# Disks as storages

A disk keeps files at its paths. What a write changed stays, also where it failed halfway.
-/

namespace JavaSource.Disk

def storage : Storage (StateM Disk) where
  read? path := return (← get).readPath? path
  write path content := modifyGet (writePath path content)

/-- Writes a text to a path unless the file there already holds its bytes. -/
def save? (path content : Text) (disk : Disk) : Option WriteOutcome × Disk :=
  storage.save? path content disk

/-- Writes files below a directory and reports on them. -/
def saveAll? (base : Text) (files : List OutputFile) (disk : Disk) : Option WriteReport × Disk :=
  storage.saveAll? base files {} disk

end JavaSource.Disk
