import Orion.BlockProcessor.Recovery

/-!
# The index database against the values it indexes

A database with an index definition keeps, in its index database `IndexDB dbName`, one key per
index entry of its current values (`IndexConsistent`). Every block computes the index updates
from the committed values it replaces (`ConstructIndexEntries`); what it reads back as an entry's
key is the entry's text, which determines the entry and so the key it names
(`IndexEntry.String_injective`).

Deleting a database removes its own files only: `commitToDB` deletes the database `_dbs` loses,
and nothing deletes its index database. A database created again under the same name with an
index finds the old index database there (`create` keeps a database that exists), with the
entries of values the new database never had.
-/

namespace Orion.StateIndex

open Orion.State Orion.Types Orion.WorldState Orion.Trie Orion.BlockProcessor

/-- The keys of the index database of `dbName` are exactly the entries, under `index`, of the
database's current values. -/
def IndexConsistent (l : LevelDB) (dbName : String) (index : IndexDef) : Prop :=
  ∀ entry, (l.entry (IndexDB dbName) entry).isSome ↔
    ∃ key v, l.entry dbName key = some v ∧
      entry ∈ toStrings (decodeJSONAndConstructIndexEntries key v.value index)

end Orion.StateIndex
