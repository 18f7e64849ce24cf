import Bir.Text.Blank

/-!
# Log filters — which directives apply

Two environment variables may hold the directives of the log filter. `LogFilter.directives?`
chooses between them: the program's own variable goes first, and a blank value counts as unset.
-/

namespace Bir
namespace LogFilter

/-- The directives that apply, given the values of the program's own and of the general variable. -/
def directives? (own general : Option String) : Option String :=
  ([own, general].filterMap id).find? (fun directives => !Text.isBlank directives)

end LogFilter
end Bir
