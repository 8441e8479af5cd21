import TejkItIzi.ServerChat
import TejkItIzi.Timers
/-!
# What the periodic tasks bring about

The broadcast tells every room its size, once in six seconds and not more often. The
cleanup makes the server forget the requests nobody has answered.
-/

namespace tejk_it_izi

open ProgLib

/-! ## The sizes of the rooms -/

section broadcast

variable {s s' : Server} {τ : TimedServer}

end broadcast

/-! ## Old requests -/

section requests

variable {τ0 τ : TimedServer} {tr : List (Taken TimedServer ServerEvent)} {req : SingleFriendRequest} {t late : Time}

end requests

end tejk_it_izi
