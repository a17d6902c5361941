-- SUMMARY: The large letters that are shown when polling starts.
/-!
# Banner

The name of the relay in large letters, shown when polling starts.
-/

namespace SmsRelay

def bannerLines : List String :=
  ["       ",
    "░██████╗ ███╗░░░███╗ ░██████╗ ██████╗░ ███████╗ ██╗░░░░░ ░█████╗░ ██╗░░░██╗",
    "██╔════╝ ████╗░████║ ██╔════╝ ██╔══██╗ ██╔════╝ ██║░░░░░ ██╔══██╗ ╚██╗░██╔╝",
    "╚█████╗░ ██╔████╔██║ ╚█████╗░ ██████╔╝ █████╗░░ ██║░░░░░ ███████║ ░╚████╔╝░",
    "░╚═══██╗ ██║╚██╔╝██║ ░╚═══██╗ ██╔══██╗ ██╔══╝░░ ██║░░░░░ ██╔══██║ ░░╚██╔╝░░",
    "██████╔╝ ██║░╚═╝░██║ ██████╔╝ ██║░░██║ ███████╗ ███████╗ ██║░░██║ ░░░██║░░░",
    "╚═════╝░ ╚═╝░░░░░╚═╝ ╚═════╝░ ╚═╝░░╚═╝ ╚══════╝ ╚══════╝ ╚═╝░░╚═╝ ░░░╚═╝░░░"]

/-- The banner, each line ended. -/
def banner : String := String.join (bannerLines.map (· ++ "\n"))

end SmsRelay
