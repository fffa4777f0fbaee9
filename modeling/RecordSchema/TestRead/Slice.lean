/-
# Slices

A stream is read in slices.  A slice has the pages that were fetched for it, the part of the
stream that it covers, and the state of the connector after it.
-/
import RecordSchema.TestRead.Page

namespace RecordSchema

/-- The part of a stream that a slice covers. -/
structure SliceDescriptor where
  /-- Where the slice begins, if slices are cut by time. -/
  startDatetime : Option String
  /-- The item of the slice, if slices are cut by a list. -/
  listItem : Option String
deriving DecidableEq

namespace SliceDescriptor

/-- How slice descriptors are read and written. -/
def layout : Layout SliceDescriptor where
  name := "SliceDescriptor"
  fields := SliceDescriptor.mk
    <$> Fields.optional "start_datetime" "start_datetime" Codec.text (·.startDatetime)
    <*> Fields.optional "list_item" "list_item" Codec.text (·.listItem)

/-- Whether a descriptor says nothing. -/
def isEmpty (d : SliceDescriptor) : Bool := d.startDatetime.isNone && d.listItem.isNone

end SliceDescriptor

/-- A slice. -/
structure SliceRecord where
  /-- The pages, in the order of their requests. -/
  pages : List PageRecord
  /-- The part of the stream that the slice covers. -/
  sliceDescriptor : Option SliceDescriptor
  /-- The state of the connector after the slice. -/
  state : Option Members
deriving DecidableEq

/-- How slices are read and written. -/
def SliceRecord.layout : Layout SliceRecord where
  name := "SliceRecord"
  fields := SliceRecord.mk
    <$> Fields.required "pages" "pages" (Codec.list PageRecord.layout.codec) (·.pages)
    <*> Fields.optional "slice_descriptor" "slice_descriptor" SliceDescriptor.layout.codec
      (·.sliceDescriptor)
    <*> Fields.optional "state" "state" Codec.document (·.state)

end RecordSchema
