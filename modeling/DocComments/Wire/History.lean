import DocComments.History.Record
import DocComments.Wire.Definition

/-! History records as JSON. -/
namespace DocComments

def Instant.decoder : Decoder Instant := fun value =>
  match Decoder.text value with
  | .error e => .error e
  | .ok s =>
    match Instant.parse? s.toList with
    | some t => .ok t
    | none => .error .mismatch

namespace History.Record

def toJson (r : Record) : Json :=
  .obj [("id", .str r.id), ("filename", .str r.filename), ("language", .str r.language.name),
    ("contentBefore", .str r.contentBefore), ("contentAfter", .str r.contentAfter),
    ("createdAt", .str (String.ofList r.createdAt.text))]

structure Draft where
  id : Option String := none
  filename : Option String := none
  language : Option Language := none
  contentBefore : Option String := none
  contentAfter : Option String := none
  createdAt : Option Instant := none

def fields : List (Decoder.Field Draft) := [
  .of "id" .text fun d v => { d with id := some v },
  .of "filename" .text fun d v => { d with filename := some v },
  .of "language" Language.decoder fun d v => { d with language := some v },
  .of "contentBefore" .text fun d v => { d with contentBefore := some v },
  .of "contentAfter" .text fun d v => { d with contentAfter := some v },
  .of "createdAt" Instant.decoder fun d v => { d with createdAt := some v }]

def Draft.finish (d : Draft) : Option Record := do
  some {
    id := ← d.id
    filename := ← d.filename
    language := ← d.language
    contentBefore := ← d.contentBefore
    contentAfter := ← d.contentAfter
    createdAt := ← d.createdAt }

def decoder : Decoder Record :=
  Decoder.record fields {} Draft.finish

end History.Record
end DocComments
