import ScopedQuery.Decode.Basic
import ScopedQuery.Request.Basic

set_option autoImplicit false

namespace ScopedQuery.Request

inductive EntryDocument where
  | text (text : String)
  | children (members : List (String × Json))

inductive FieldsDocument where
  | text (text : String)
  | list (entries : List EntryDocument)

structure Document where
  entity : String
  fields : Option FieldsDocument
  filters : Option Json
  orderBy : Option String
  groupBy : Option String
  limit : Option Int64
  offset : Option Int64
  distinct : Bool
  forUpdate : Bool
  skipLocked : Bool
  wait : Bool
  mode : Option String

def Document.blank : Document where
  entity := ""
  fields := none
  filters := none
  orderBy := none
  groupBy := none
  limit := none
  offset := none
  distinct := false
  forUpdate := false
  skipLocked := false
  wait := true
  mode := none

def EntryDocument.ofJson? : Json → Option EntryDocument
  | .str s => some (.text s)
  | .obj members => some (.children members)
  | _ => none

def FieldsDocument.decode : Decoder FieldsDocument := .ofJson fun j =>
  match j with
  | .str s => .ok (.text s)
  | .arr items =>
    match items.mapM EntryDocument.ofJson? with
    | some entries => .ok (.list entries)
    | none => .error (.noVariant "FieldsDocument")
  | _ => .error (.noVariant "FieldsDocument")

open Decoder in
def Document.members : List (RecordField Document) :=
  [required "entity" string fun d s => { d with entity := s },
   nullable "fields" FieldsDocument.decode fun d f => { d with fields := f },
   nullable "filters" (.ofJson .ok) fun d f => { d with filters := f },
   nullable "order_by" string fun d s => { d with orderBy := s },
   nullable "group_by" string fun d s => { d with groupBy := s },
   nullable "limit" signed fun d n => { d with limit := n },
   nullable "offset" signed fun d n => { d with offset := n },
   defaulted "distinct" bool fun d b => { d with distinct := b },
   defaulted "for_update" bool fun d b => { d with forUpdate := b },
   defaulted "skip_locked" bool fun d b => { d with skipLocked := b },
   defaulted "wait" bool fun d b => { d with wait := b },
   nullable "mode" string fun d s => { d with mode := s }]

def Document.decode : Decoder Document := .record "RequestDocument" true members .blank

def childEntry (fieldname : String) (j : Json) : Except RequestFault Selection.Entry :=
  match (Decoder.list Decoder.string).json j with
  | .ok fields => .ok (.child fieldname fields)
  | .error _ => .error (.childFields fieldname)

def EntryDocument.entries : EntryDocument → Except RequestFault (List Selection.Entry)
  | text s => .ok [.text s]
  | children members => members.mapM fun (fieldname, j) => childEntry fieldname j

def FieldsDocument.selection : FieldsDocument → Except RequestFault Selection
  | text s => .ok (.text s)
  | list entries => (entries.mapM EntryDocument.entries).map fun es => .entries es.flatten

def modeOf : Option String → Except RequestFault Sql.Mode
  | none => .ok .select
  | some name =>
    match Sql.Mode.ofName? name with
    | some mode => .ok mode
    | none => .error (.unknownMode name)

def Document.request (d : Document) : Except RequestFault Request := do
  let fields ← d.fields.mapM FieldsDocument.selection
  let mode ← modeOf d.mode
  pure {
    target := .entity d.entity
    fields := fields
    filters := d.filters.map .json
    orderBy := d.orderBy
    groupBy := d.groupBy
    limit := d.limit
    offset := d.offset
    distinct := d.distinct
    forUpdate := d.forUpdate
    skipLocked := d.skipLocked
    wait := d.wait
    mode := mode }

def ofJson (j : Json) : Result Request :=
  match Document.decode.json j with
  | .error e => .error (.invalidRequest (.decode e))
  | .ok d =>
    match d.request with
    | .error fault => .error (.invalidRequest fault)
    | .ok r => .ok r

end ScopedQuery.Request
