import InertiaRelayer.Auth.Claims

namespace InertiaRelayer.Auth

abbrev AuthChallenges := KeyMap IpAddr AuthChallenge

namespace AuthChallenges

def removeAllExpired (p : Platform) (clock : Nat → Int) (q : AuthChallenges) : AuthChallenges :=
  p.heap.popWhile (fun now c => c.isExpired now) q.size clock q

def push (q : AuthChallenges) (ip : IpAddr) (challenge : AuthChallenge) : AuthChallenges :=
  q.insert ip challenge

def len (q : AuthChallenges) : Nat := q.size

def getPriority (q : AuthChallenges) (ip : IpAddr) : Option AuthChallenge := q.lookup ip

def remove (q : AuthChallenges) (ip : IpAddr) : AuthChallenges := q.erase ip

theorem getPriority_removeAllExpired {p : Platform} {clock : Nat → Int} {q : AuthChallenges}
    {ip : IpAddr} {c : AuthChallenge} (h : (q.removeAllExpired p clock).getPriority ip = some c) :
    q.getPriority ip = some c :=
  Heap.lookup_popWhile p.heap _ h

theorem getPriority_push {q : AuthChallenges} {ip ip' : IpAddr} {c c' : AuthChallenge}
    (h : (q.push ip c).getPriority ip' = some c') :
    (ip' = ip ∧ c' = c) ∨ (ip' ≠ ip ∧ q.getPriority ip' = some c') :=
  KeyMap.lookup_insert_cases h

theorem getPriority_push_self (q : AuthChallenges) (ip : IpAddr) (c : AuthChallenge) :
    (q.push ip c).getPriority ip = some c :=
  AList.lookup_insert q

theorem getPriority_remove {q : AuthChallenges} {ip ip' : IpAddr} {c : AuthChallenge}
    (h : (q.remove ip).getPriority ip' = some c) : ip' ≠ ip ∧ q.getPriority ip' = some c :=
  KeyMap.lookup_erase_some h

end AuthChallenges

end InertiaRelayer.Auth
