import KeyedRecords.Store.Data
import KeyedRecords.Text.Character
import KeyedRecords.Text.Split

/-!
# Search by terms

A term index holds the terms of documents, which are known by model and id. A search finds the
documents of a model that have all terms of a text; small and capital letters count as the same.
-/

namespace KeyedRecords

/-- The terms of documents, by model and id. -/
structure TermIndex where
  /-- For each model, the terms of its documents. -/
  documents : Table (Table (List String))

namespace TermIndex

/-- An index without documents. -/
def empty : TermIndex := ⟨∅⟩

def terms (text : String) : List String := (Text.words text).map Text.lowercase

/-- The documents of a model. -/
def ofModel (x : TermIndex) (model : String) : Table (List String) := (x.documents[model]?).getD ∅

/-- Adds a document, or replaces it. -/
def insert (x : TermIndex) (model id text : String) : TermIndex :=
  ⟨x.documents.insert model ((x.ofModel model).insert id (terms text))⟩

/-- Removes a document. -/
def erase (x : TermIndex) (model id : String) : TermIndex :=
  ⟨x.documents.insert model ((x.ofModel model).erase id)⟩

/-- The number of documents. -/
def size (x : TermIndex) : Nat :=
  (x.documents.toList.map fun (_, docs) => docs.size).foldr (· + ·) 0

/-- The ids of the documents of a model that have all terms of a text, in ascending order. -/
def search (x : TermIndex) (model text : String) : List String :=
  let wanted := terms text
  ((x.ofModel model).toList.filter fun (_, found) => wanted.all found.contains).map Prod.fst

end TermIndex

end KeyedRecords
