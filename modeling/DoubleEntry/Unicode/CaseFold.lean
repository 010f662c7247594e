import DoubleEntry.Unicode.Table

/-! Characters that differ in case only. -/

namespace DoubleEntry.Unicode

/-- Pairs of a capital and a small character. Runs of four numbers: the first code point, the number
of pairs, the step from one to the next, and the distance within a pair. -/
def casePairText : String := "
  1t a 1 w 24 7 1 w 2c 7 1 w 5c 5 1 w 5i h 1 w 60 7 1 w 67 1 1 5vj 73 1 1 3d 74 o 2 1 8i 3 2 1 8p
  8 2 1 96 n 2 1 ah 3 2 1 ao 1 1 5f ap 1 1 5u aq 2 2 1 au 1 1 5q av 1 1 1 ax 2 1 5p az 1 1 1 b2 1
  1 27 b3 1 1 5m b4 1 1 5n b5 1 1 1 b7 1 1 5p b8 1 1 5r b9 1 1 2p ba 1 1 5v bb 1 1 5t bc 1 1 1 be
  1 1 4j bf 1 1 wu9 bg 1 1 5v bh 1 1 5x bi 1 1 3m bj 1 1 5y bk 3 2 1 bq 1 1 62 br 1 1 1 bt 1 1 62
  bw 1 1 1 by 1 1 62 bz 1 1 1 c1 2 1 61 c3 2 2 1 c7 1 1 63 c8 1 1 1 cc 1 1 1 cf 1 1 1k ct 8 2 1 da
  9 2 1 dw 1 1 1 e0 k 2 1 f6 9 2 1 fu 1 1 8bv fv 1 1 1 fy 1 1 8bs fz 2 1 8cf g1 1 1 1 g4 1 1 1x g5
  1 1 1z g6 5 2 1 gg 1 1 8bj gh 1 1 8bg gi 1 1 8bi gs 1 1 wnj gx 1 1 wnf h0 1 1 wo7 h1 1 1 wmg h2
  1 1 wn8 h6 1 1 wn8 h7 1 1 8af h8 1 1 wn5 hd 1 1 8al hp 1 1 89z hu 1 1 wn7 hz 1 1 wmi il 1 1 wlx
  im 1 1 wlu og 2 2 1 om 1 1 1 or 3 1 3m ov 1 1 38 p2 1 1 12 p4 3 1 11 p8 1 1 1s pa 2 1 1r pc 1 1
  5kz pd 2 2 w pg 2 2 w pj 1 1 w pn 2 2 w pq 2 1 w pw 2 1 w pz 2 1 w q2 2 1 w q8 1 1 5kj r3 1 1 8
  rc c 2 1 s2 1 1 7 s7 1 1 1 sa 1 1 1 sg g 1 28 sw 2 1 w sz 2 2 w t2 8 1 w tb 2 1 w tf 7 1 w tn 5
  1 w v4 1 1 1 v8 f 2 1 wa r 2 1 xs 1 1 f xt 7 2 1 y8 1c 2 1 10x 12 1 1c 3a8 12 1 5ls 3bb 1 1 5ls
  3bh 1 1 5ls 3bk 17 1 2bk 3ct 3 1 2bk 3vk 28 1 tzk 3xs 6 1 8 5mx 1 1 1 5tl 1 1 r9g 5tp 1 1 2xy
  5u6 1 1 raw 5xc 1c 2 1 602 q 2 1 61s 1c 2 1 64g 8 1 8 64w 6 1 8 65c 8 1 8 65s 8 1 8 668 6 1 8
  66p 4 2 8 674 8 1 8 67k 2 1 22 67m 4 1 2e 67q 2 1 2s 67s 2 1 3k 67u 2 1 34 67w 2 1 3i 680 8 1 8
  68g 8 1 8 68w 8 1 8 69c 2 1 8 69f 1 1 9 69v 1 1 9 6a8 2 1 8 6ao 2 1 8 6at 1 1 7 6b7 1 1 9 6k2 1
  1 s 6lc g 1 g 6mb 1 1 1 792 q 1 q 8ow 1c 1 1c 8rk 1 1 1 8rr 3 2 1 8s2 1 1 1 8s5 1 1 1 8sg 1e 2 1
  8vf 2 2 1 8vm 1 1 1 wu8 5 2 1 wuk h 2 1 ww0 e 2 1 x0i 7 2 1 x0y v 2 1 x2x 2 2 1 x32 5 2 1 x3f 1
  1 1 x3k 2 2 1 x3o 1 1 1c x3q a 2 1 x4j 1 1 ps x4k 8 2 1 x53 2 2 1 x58 8 2 1 x6d 1 1 1 1dl1 1 1 1
  1ee9 q 1 w 1fcw 14 1 14 1fhs 10 1 14 1fn4 b 1 13 1fng f 1 13 1fnw 7 1 13 1fo4 2 1 13 1h1c 1f 1
  1s 1h74 m 1 w 1jfk w 1 w 20cg w 1 w 20f4 p 1 r 2olc y 1 y"

/-- Sets of more than two characters, with hyphens between them. -/
def caseSetText : String := "
  23-2z-6ju 2b-37-an 51-po-qk 5h-6d-6jv ck-cl-cm cn-co-cp cq-cr-cs dt-du-dv n9-pl-qh-69q pe-qa-r4
  ph-qd-s5 pk-qg-r5-s4 pm-qi-s0 ps-qo-ra pt-qp-s1 pv-qq-qr py-qu-r9 q1-qx-6jq sy-tu-5mo t0-tw-5mp
  ta-u6-5mq td-u9-5mr te-ua-5ms-5mt tm-ui-5mu v6-v7-5mv 5mw-wui-wuj 600-601-61n"

def casePairs : List Nat → List (Nat × Nat)
  | first :: count :: step :: distance :: rest =>
    (List.range count).map (fun index => (first + index * step, first + index * step + distance)) ++
      casePairs rest
  | _ => []

/-- Every set of characters that differ in case only, by each of its characters, in increasing
order. -/
def caseSets : Array (Nat × List Nat) :=
  let pairs := (casePairs (tableNumbers casePairText)).flatMap fun pair =>
    [(pair.1, [pair.1, pair.2]), (pair.2, [pair.1, pair.2])]
  let sets := (tableWords caseSetText).flatMap fun word =>
    let set := (word.splitOn '-').map numberValue
    set.map fun code => (code, set)
  ((pairs ++ sets).mergeSort fun a b => a.1 ≤ b.1).toArray

def caseStarts : Array Nat := caseSets.map (·.1)

/-- The characters that differ from `c` in case only, `c` among them. -/
def caseVariants (c : Char) : List Char :=
  let found := caseSets.getD (lastAtMost caseStarts c.toNat) (0, [])
  if found.1 == c.toNat then found.2.map Char.ofNat else [c]

end DoubleEntry.Unicode
