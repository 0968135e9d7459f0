import ServiceExposure.Cluster.Store
import ServiceExposure.Json.Patch
/-!
# What other writers leave

Other writers store JSON, and nobody keeps them from storing what is no object of its kind.  A `Storage` is a cluster
together with the forms in which other writers left objects.  Where the form can be read the cluster holds the object
that it stands for; where it cannot there is a form without an object.  An object without a readable form cannot be
given out, but its name is taken, it can be replaced and it can be deleted.  As long as nobody else has written
anything, the storage answers as the cluster does (`serve_of_forms_eq_nil`).
-/
namespace ServiceExposure

/-- An object in the form that another writer left it in. -/
structure StoredForm where
  kind : Kind
  name : String
  json : Json
deriving DecidableEq

namespace StoredForm

def metadata (form : Json) : Dict Json := ((form.membersOf.get? "metadata").getD .null).membersOf

/-- The name of an object in its JSON form: its own, or what its name is generated from, or none at all. -/
def nameOf (form : Json) : String :=
  (((metadata form).get? "name").bind Json.text?).getD
    ((((metadata form).get? "generateName").bind Json.text?).getD "")

def versionOf (form : Json) : Option String := ((metadata form).get? "resourceVersion").bind Json.text?

def labelsOf (form : Json) : Dict String :=
  .ofList (((metadata form).get? "labels").getD .null |>.membersOf.toList.filterMap
    (fun m => m.2.text?.map (fun v => (m.1, v))))

/-- The form of an object of a kind, with a resource version. -/
def stamped (kind : Kind) (form : Json) (version : String) : Json :=
  form.patched (.obj
    [("apiVersion", .str kind.apiVersion), ("kind", .str kind.name),
     ("metadata", .obj [("resourceVersion", .str version)])])

/-- Tests for a form that a request is about. -/
def concerns (f : StoredForm) : Request → Bool
  | .list kind selector => f.kind = kind && Selector.matchesLabels selector (labelsOf f.json)
  | r => f.kind = r.kind && r.name? = some f.name

end StoredForm

/-- A cluster with the forms in which other writers left objects. -/
structure Storage where
  cluster : Cluster := {}
  forms : List StoredForm := []
deriving DecidableEq

namespace Storage

/-- The forms without that of an object. -/
def formsBut (s : Storage) (kind : Kind) (name : String) : List StoredForm :=
  s.forms.filter (fun f => f.kind ≠ kind ∨ f.name ≠ name)

def form? (s : Storage) (kind : Kind) (name : String) : Option Json :=
  match s.forms.find? (fun f => f.kind = kind && f.name = name) with
  | some f => some f.json
  | none => (s.cluster.get? kind name).map kind.toJson

/-- Stores an object under a name, whatever was there. -/
def put (s : Storage) (kind : Kind) (name : String) (o : kind.Object) : Storage :=
  ⟨s.cluster.put kind name o, s.formsBut kind name⟩

def remove (s : Storage) (kind : Kind) (name : String) : Storage :=
  ⟨s.cluster.remove kind name, s.formsBut kind name⟩

/-- Stores an object in the form that another writer gives it, whatever was there. -/
def putForm (s : Storage) (kind : Kind) (name : String) (form : Json) : Storage :=
  let form := StoredForm.stamped kind form s.cluster.nextVersion
  let forms := ⟨kind, name, form⟩ :: s.formsBut kind name
  match kind.ofJson? form with
  | some o => ⟨s.cluster.put kind name o, forms⟩
  | none => ⟨{ s.cluster.remove kind name with version := s.cluster.version + 1 }, forms⟩

/-- A form that stands in the way of a request because it cannot be read. -/
def obstacle? (s : Storage) (r : Request) : Option StoredForm :=
  s.forms.find? (fun f => f.concerns r && (s.cluster.get? f.kind f.name).isNone)

/-- Answers a request that is about a form that cannot be read. -/
def serveObstructed (form : Json) : (r : Request) → Storage → Except Refusal r.Reply × Storage
  | .get _ _, s | .list _ _, s => (.error .unreadable, s)
  | .create _ _, s => (.error .conflict, s)
  | .replace kind name o, s =>
    if (kind.metadata o).resourceVersion = StoredForm.versionOf form then (.ok (), s.put kind name o)
    else (.error .conflict, s)
  | .delete kind name, s => (.ok (), s.remove kind name)

def serve (r : Request) (s : Storage) : Except Refusal r.Reply × Storage :=
  match s.obstacle? r with
  | some f => serveObstructed f.json r s
  | none =>
    let (reply, cluster) := s.cluster.serve r
    (reply, ⟨cluster,
      match reply, r.verb.isWrite, r.name? with
      | .ok _, true, some name => s.formsBut r.kind name
      | _, _, _ => s.forms⟩)

theorem serve_of_forms_eq_nil {s : Storage} (r : Request) (h : s.forms = []) :
    s.serve r = ((s.cluster.serve r).1, ⟨(s.cluster.serve r).2, []⟩) := by
  have ho : s.obstacle? r = none := by rw [obstacle?, h]; rfl
  have hb : ∀ kind name, s.formsBut kind name = [] := fun kind name => by rw [formsBut, h]; rfl
  simp only [serve, ho, hb, h]
  split <;> rfl

end Storage
end ServiceExposure
