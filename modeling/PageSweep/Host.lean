import PageSweep.Text.Pieces

/-!
# Hosts

Handlers and schema entries name the hosts they are for: one host, the last two labels of a host, or any
host at all.
-/

namespace PageSweep.Host

open Text

/-- The last two labels of a host, or all of it if it has fewer. -/
def baseDomain (host : String) : String :=
  let labels := split '.' host
  join "." (labels.drop (labels.length - 2))

/-- Whether a pattern is for a host: `*`, the host itself or its last two labels. -/
def isMatch (pattern host : String) : Bool :=
  pattern == "*" || pattern == host || pattern == baseDomain host

end PageSweep.Host
