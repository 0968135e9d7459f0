import ServiceExposure.Json.Basic
/-!
# Merge patches

A merge patch (RFC 7396) is a JSON value: an object changes the members that it names, recursively, and takes out those
that it names with `null`; any other value replaces what was there.
-/
namespace ServiceExposure
namespace Json

/-- The members of an object; of anything else there are none. -/
def membersOf : Json → Dict Json
  | .obj members => .ofList members
  | _ => .empty

mutual

/-- The value `target` after a patch. -/
def patched (target : Json) : (patch : Json) → Json
  | .obj changes => .obj (patchedMembers target.membersOf changes).toList
  | patch => patch

/-- The members of an object after a patch. -/
def patchedMembers (members : Dict Json) : (changes : List (String × Json)) → Dict Json
  | [] => members
  | (name, change) :: changes =>
    match change with
    | .null => patchedMembers (members.erase name) changes
    | change => patchedMembers (members.insert name (patched ((members.get? name).getD .null) change)) changes

end

end Json
end ServiceExposure
