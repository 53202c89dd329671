import Rollout.Codec.Task

/-! Recommendations as documents.  A recommendation is a table with its fields and a tag among
them, or a list that starts with the tag.  The other fields cannot be read before the tag is
known, so they are retained. -/

namespace Rollout

namespace Recommendation

inductive Kind where
  | launch
  | reserve
  | unreserve
  deriving DecidableEq, Repr

def Kind.choices : List (String × Kind) :=
  [("launch", .launch), ("reserve", .reserve), ("unreserve", .unreserve)]

def typeName : String := "OfferRecommendation"

def tagField : String := "type"

def toDocument : Recommendation → Document
  | .launch task => .table [(tagField, .text "launch"), ("task", task.toDocument)]
  | .reserve resourceId podInstance =>
      .table [
        (tagField, .text "reserve"),
        ("resource_id", .text resourceId),
        ("pod_instance", .text podInstance)]
  | .unreserve resourceId =>
      .table [(tagField, .text "unreserve"), ("resource_id", .text resourceId)]

def readTag : Reader Kind
  | .text name => Reader.named Kind.choices name
  | document => .error (.wrongKind document .tag)

def launchShape : RecordShape :=
  ⟨"struct variant OfferRecommendation::Launch", ["task"]⟩

def reserveShape : RecordShape :=
  ⟨"struct variant OfferRecommendation::Reserve", ["resource_id", "pod_instance"]⟩

def unreserveShape : RecordShape :=
  ⟨"struct variant OfferRecommendation::Unreserve", ["resource_id"]⟩

def readContent : Kind → Reader Recommendation
  | .launch =>
      Dialect.retained.record launchShape fun fields =>
        Recommendation.launch
          <$> fields.required "task" (TaskDescriptor.read .retained)
  | .reserve =>
      Dialect.retained.record reserveShape fun fields =>
        Recommendation.reserve
          <$> fields.required "resource_id" Reader.text
          <*> fields.required "pod_instance" Reader.text
  | .unreserve =>
      Dialect.retained.record unreserveShape fun fields =>
        Recommendation.unreserve
          <$> fields.required "resource_id" Reader.text

def read : Reader Recommendation
  | .table entries =>
      match Document.findKey? tagField entries with
      | none => .error (.missingField tagField)
      | some (_, tag) => do
          let kind ← readTag tag
          readContent kind (.table (entries.filter fun entry => entry.1 != tagField))
  | document =>
      match document.items? with
      | some [] => .error (.missingField tagField)
      | some (tag :: content) => do
          let kind ← readTag tag
          readContent kind (.list content)
      | none => .error (.wrongKind document (.tagged typeName))

end Recommendation

end Rollout
