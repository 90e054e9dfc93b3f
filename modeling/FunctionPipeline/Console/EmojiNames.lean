/-!
Names of pictures. A name stands before the hexadecimal code points of its picture, or before the
two letters of a flag.
-/

namespace FunctionPipeline.Emoji

/-- Pictures of people and hands, which come in five skin tones too. -/
def tonedNames : String :=
  "adult 1f9d1 baby 1f476 baby_angel 1f47c backhand_index_pointing_down 1f447
  backhand_index_pointing_left 1f448 backhand_index_pointing_right 1f449
  backhand_index_pointing_up 1f446 bearded_person 1f9d4 blond-haired_man 1f471-200d-2642-fe0f
  blond-haired_person 1f471 blond-haired_woman 1f471-200d-2640-fe0f boy 1f466 breast-feeding 1f931
  bride_with_veil 1f470 call_me_hand 1f919 child 1f9d2 clapping_hands 1f44f
  construction_worker 1f477 crossed_fingers 1f91e detective 1f575 ear 1f442 elf 1f9dd fairy 1f9da
  flexed_biceps 1f4aa folded_hands 1f64f girl 1f467 guard 1f482 hand_with_fingers_splayed 1f590
  horse_racing 1f3c7 index_pointing_up 261d left-facing_fist 1f91b love-you_gesture 1f91f
  mage 1f9d9 man 1f468 man_artist 1f468-200d-1f3a8 man_astronaut 1f468-200d-1f680
  man_biking 1f6b4-200d-2642-fe0f man_bouncing_ball 26f9-fe0f-200d-2642-fe0f
  man_bowing 1f647-200d-2642-fe0f man_cartwheeling 1f938-200d-2642-fe0f
  man_climbing 1f9d7-200d-2642-fe0f man_construction_worker 1f477-200d-2642-fe0f
  man_cook 1f468-200d-1f373 man_dancing 1f57a man_detective 1f575-fe0f-200d-2642-fe0f
  man_elf 1f9dd-200d-2642-fe0f man_facepalming 1f926-200d-2642-fe0f
  man_factory_worker 1f468-200d-1f3ed man_fairy 1f9da-200d-2642-fe0f man_farmer 1f468-200d-1f33e
  man_firefighter 1f468-200d-1f692 man_frowning 1f64d-200d-2642-fe0f
  man_gesturing_no 1f645-200d-2642-fe0f man_gesturing_ok 1f646-200d-2642-fe0f
  man_getting_haircut 1f487-200d-2642-fe0f man_getting_massage 1f486-200d-2642-fe0f
  man_golfing 1f3cc-fe0f-200d-2642-fe0f man_guard 1f482-200d-2642-fe0f
  man_health_worker 1f468-200d-2695-fe0f man_in_lotus_position 1f9d8-200d-2642-fe0f
  man_in_steamy_room 1f9d6-200d-2642-fe0f man_in_suit_levitating 1f574 man_in_tuxedo 1f935
  man_judge 1f468-200d-2696-fe0f man_juggling 1f939-200d-2642-fe0f
  man_lifting_weights 1f3cb-fe0f-200d-2642-fe0f man_mage 1f9d9-200d-2642-fe0f
  man_mechanic 1f468-200d-1f527 man_mountain_biking 1f6b5-200d-2642-fe0f
  man_office_worker 1f468-200d-1f4bc man_pilot 1f468-200d-2708-fe0f
  man_playing_handball 1f93e-200d-2642-fe0f man_playing_water_polo 1f93d-200d-2642-fe0f
  man_police_officer 1f46e-200d-2642-fe0f man_pouting 1f64e-200d-2642-fe0f
  man_raising_hand 1f64b-200d-2642-fe0f man_rowing_boat 1f6a3-200d-2642-fe0f
  man_running 1f3c3-200d-2642-fe0f man_scientist 1f468-200d-1f52c
  man_shrugging 1f937-200d-2642-fe0f man_singer 1f468-200d-1f3a4 man_student 1f468-200d-1f393
  man_surfing 1f3c4-200d-2642-fe0f man_swimming 1f3ca-200d-2642-fe0f man_teacher 1f468-200d-1f3eb
  man_technologist 1f468-200d-1f4bb man_tipping_hand 1f481-200d-2642-fe0f
  man_vampire 1f9db-200d-2642-fe0f man_walking 1f6b6-200d-2642-fe0f
  man_wearing_turban 1f473-200d-2642-fe0f man_with_chinese_cap 1f472 mermaid 1f9dc-200d-2640-fe0f
  merman 1f9dc-200d-2642-fe0f merperson 1f9dc middle_finger 1f595 mrs._claus 1f936
  nail_polish 1f485 nose 1f443 ok_hand 1f44c old_man 1f474 old_woman 1f475 older_adult 1f9d3
  oncoming_fist 1f44a open_hands 1f450 palms_up_together 1f932 person_biking 1f6b4
  person_bouncing_ball 26f9 person_bowing 1f647 person_cartwheeling 1f938 person_climbing 1f9d7
  person_facepalming 1f926 person_frowning 1f64d person_gesturing_no 1f645
  person_gesturing_ok 1f646 person_getting_haircut 1f487 person_getting_massage 1f486
  person_golfing 1f3cc person_in_bed 1f6cc person_in_lotus_position 1f9d8
  person_in_steamy_room 1f9d6 person_juggling 1f939 person_lifting_weights 1f3cb
  person_mountain_biking 1f6b5 person_playing_handball 1f93e person_playing_water_polo 1f93d
  person_pouting 1f64e person_raising_hand 1f64b person_rowing_boat 1f6a3 person_running 1f3c3
  person_shrugging 1f937 person_surfing 1f3c4 person_swimming 1f3ca person_taking_bath 1f6c0
  person_tipping_hand 1f481 person_walking 1f6b6 person_wearing_turban 1f473 police_officer 1f46e
  pregnant_woman 1f930 prince 1f934 princess 1f478 raised_back_of_hand 1f91a raised_fist 270a
  raised_hand 270b raising_hands 1f64c right-facing_fist 1f91c santa_claus 1f385 selfie 1f933
  sign_of_the_horns 1f918 snowboarder 1f3c2 thumbs_down 1f44e thumbs_up 1f44d vampire 1f9db
  victory_hand 270c vulcan_salute 1f596 waving_hand 1f44b woman 1f469
  woman_artist 1f469-200d-1f3a8 woman_astronaut 1f469-200d-1f680 woman_biking 1f6b4-200d-2640-fe0f
  woman_bouncing_ball 26f9-fe0f-200d-2640-fe0f woman_bowing 1f647-200d-2640-fe0f
  woman_cartwheeling 1f938-200d-2640-fe0f woman_climbing 1f9d7-200d-2640-fe0f
  woman_construction_worker 1f477-200d-2640-fe0f woman_cook 1f469-200d-1f373 woman_dancing 1f483
  woman_detective 1f575-fe0f-200d-2640-fe0f woman_elf 1f9dd-200d-2640-fe0f
  woman_facepalming 1f926-200d-2640-fe0f woman_factory_worker 1f469-200d-1f3ed
  woman_fairy 1f9da-200d-2640-fe0f woman_farmer 1f469-200d-1f33e
  woman_firefighter 1f469-200d-1f692 woman_frowning 1f64d-200d-2640-fe0f
  woman_gesturing_no 1f645-200d-2640-fe0f woman_gesturing_ok 1f646-200d-2640-fe0f
  woman_getting_haircut 1f487-200d-2640-fe0f woman_getting_massage 1f486-200d-2640-fe0f
  woman_golfing 1f3cc-fe0f-200d-2640-fe0f woman_guard 1f482-200d-2640-fe0f
  woman_health_worker 1f469-200d-2695-fe0f woman_in_lotus_position 1f9d8-200d-2640-fe0f
  woman_in_steamy_room 1f9d6-200d-2640-fe0f woman_judge 1f469-200d-2696-fe0f
  woman_juggling 1f939-200d-2640-fe0f woman_lifting_weights 1f3cb-fe0f-200d-2640-fe0f
  woman_mage 1f9d9-200d-2640-fe0f woman_mechanic 1f469-200d-1f527
  woman_mountain_biking 1f6b5-200d-2640-fe0f woman_office_worker 1f469-200d-1f4bc
  woman_pilot 1f469-200d-2708-fe0f woman_playing_handball 1f93e-200d-2640-fe0f
  woman_playing_water_polo 1f93d-200d-2640-fe0f woman_police_officer 1f46e-200d-2640-fe0f
  woman_pouting 1f64e-200d-2640-fe0f woman_raising_hand 1f64b-200d-2640-fe0f
  woman_rowing_boat 1f6a3-200d-2640-fe0f woman_running 1f3c3-200d-2640-fe0f
  woman_scientist 1f469-200d-1f52c woman_shrugging 1f937-200d-2640-fe0f
  woman_singer 1f469-200d-1f3a4 woman_student 1f469-200d-1f393 woman_surfing 1f3c4-200d-2640-fe0f
  woman_swimming 1f3ca-200d-2640-fe0f woman_teacher 1f469-200d-1f3eb
  woman_technologist 1f469-200d-1f4bb woman_tipping_hand 1f481-200d-2640-fe0f
  woman_vampire 1f9db-200d-2640-fe0f woman_walking 1f6b6-200d-2640-fe0f
  woman_wearing_turban 1f473-200d-2640-fe0f woman_with_headscarf 1f9d5 writing_hand 270d"

/-- Flags, which can also be asked for with `flag_for_` in front. -/
def flagNames : String :=
  "afghanistan af albania al algeria dz american_samoa as andorra ad angola ao anguilla ai
  antarctica aq antigua_&_barbuda ag argentina ar armenia am aruba aw ascension_island ac
  australia au austria at azerbaijan az bahamas bs bahrain bh bangladesh bd barbados bb belarus by
  belgium be belize bz benin bj bermuda bm bhutan bt bolivia bo bosnia_&_herzegovina ba
  botswana bw bouvet_island bv brazil br british_indian_ocean_territory io
  british_virgin_islands vg brunei bn bulgaria bg burkina_faso bf burundi bi cambodia kh
  cameroon cm canada ca canary_islands ic cape_verde cv caribbean_netherlands bq cayman_islands ky
  central_african_republic cf ceuta_&_melilla ea chad td chile cl china cn christmas_island cx
  clipperton_island cp colombia co comoros km cook_islands ck costa_rica cr croatia hr cuba cu
  curaçao cw cyprus cy côte_d’ivoire ci denmark dk diego_garcia dg djibouti dj dominica dm
  dominican_republic do ecuador ec egypt eg el_salvador sv equatorial_guinea gq eritrea er
  estonia ee ethiopia et european_union eu falkland_islands fk faroe_islands fo fiji fj finland fi
  france fr french_guiana gf french_polynesia pf french_southern_territories tf gabon ga gambia gm
  georgia ge germany de ghana gh gibraltar gi greece gr greenland gl grenada gd guadeloupe gp
  guam gu guatemala gt guernsey gg guinea gn guyana gy haiti ht heard_&_mcdonald_islands hm
  honduras hn hungary hu iceland is india in indonesia id iran ir iraq iq ireland ie
  isle_of_man im israel il italy it jamaica jm jersey je jordan jo kazakhstan kz kenya ke
  kiribati ki kosovo xk kuwait kw kyrgyzstan kg laos la latvia lv lebanon lb lesotho ls liberia lr
  libya ly liechtenstein li lithuania lt luxembourg lu macedonia mk madagascar mg malawi mw
  malaysia my maldives mv mali ml malta mt marshall_islands mh martinique mq mauritania mr
  mauritius mu mayotte yt mexico mx micronesia fm moldova md monaco mc mongolia mn montenegro me
  montserrat ms morocco ma mozambique mz namibia na nauru nr nepal np netherlands nl
  new_caledonia nc new_zealand nz nicaragua ni niger ne nigeria ng niue nu norfolk_island nf
  north_korea kp northern_mariana_islands mp norway no oman om pakistan pk palau pw
  palestinian_territories ps panama pa papua_new_guinea pg paraguay py peru pe philippines ph
  pitcairn_islands pn poland pl portugal pt puerto_rico pr qatar qa romania ro russia ru rwanda rw
  réunion re samoa ws san_marino sm saudi_arabia sa senegal sn serbia rs seychelles sc
  sierra_leone sl singapore sg sint_maarten sx slovakia sk slovenia si solomon_islands sb
  somalia so south_africa za south_georgia_&_south_sandwich_islands gs south_korea kr
  south_sudan ss spain es sri_lanka lk st._barthélemy bl st._helena sh st._kitts_&_nevis kn
  st._lucia lc st._martin mf st._pierre_&_miquelon pm st._vincent_&_grenadines vc sudan sd
  suriname sr svalbard_&_jan_mayen sj swaziland sz sweden se switzerland ch syria sy
  são_tomé_&_príncipe st taiwan tw tajikistan tj tanzania tz thailand th togo tg tokelau tk
  tonga to trinidad_&_tobago tt tristan_da_cunha ta tunisia tn turkmenistan tm
  turks_&_caicos_islands tc tuvalu tv u.s._outlying_islands um u.s._virgin_islands vi uganda ug
  ukraine ua united_arab_emirates ae united_kingdom gb united_states us uruguay uy uzbekistan uz
  vanuatu vu vatican_city va venezuela ve vietnam vn wallis_&_futuna wf western_sahara eh yemen ye
  zambia zm zimbabwe zw åland_islands ax"

def otherFlagNames : String :=
  "cocos_(keeling)_islands cc congo_-_brazzaville cg congo_-_kinshasa cd czechia cz
  flag_for_cocos__islands cc flag_for_congo____brazzaville cg flag_for_congo____kinshasa cd
  flag_for_czech_republic cz flag_for_guinea__bissau gw flag_for_hong_kong hk flag_for_japan jp
  flag_for_macau mo flag_for_myanmar mm flag_for_timor__leste tl flag_for_turkey tr
  guinea-bissau gw hong_kong_sar_china hk macau_sar_china mo myanmar_(burma) mm timor-leste tl
  united_nations un"

def pictureNames : String :=
  "+1 1f44d -1 1f44e 100 1f4af 1234 1f522 1st_place_medal 1f947 2nd_place_medal 1f948
  3rd_place_medal 1f949 8ball 1f3b1 __1 1f44e a 1f170 a_button_(blood_type) 1f170 ab 1f18e
  ab_button_(blood_type) 1f18e abacus 1f9ee abc 1f524 abcd 1f521 accept 1f251
  adhesive_bandage 1fa79 admission_tickets 1f39f aerial_tramway 1f6a1 airplane 2708
  airplane_arrival 1f6ec airplane_arriving 1f6ec airplane_departure 1f6eb alarm_clock 23f0
  alembic 2697 alien 1f47d alien_monster 1f47e ambulance 1f691 american_football 1f3c8
  amphora 1f3fa anchor 2693 angel 1f47c anger 1f4a2 anger_symbol 1f4a2 angry 1f620
  angry_face 1f620 angry_face_with_horns 1f47f anguished 1f627 anguished_face 1f627 ant 1f41c
  antenna_bars 1f4f6 anxious_face_with_sweat 1f630 apple 1f34e aquarius 2652 aries 2648
  arrow_backward 25c0 arrow_double_down 23ec arrow_double_up 23eb arrow_down 2b07
  arrow_down_small 1f53d arrow_forward 25b6 arrow_heading_down 2935 arrow_heading_up 2934
  arrow_left 2b05 arrow_lower_left 2199 arrow_lower_right 2198 arrow_right 27a1
  arrow_right_hook 21aa arrow_up 2b06 arrow_up_down 2195 arrow_up_small 1f53c
  arrow_upper_left 2196 arrow_upper_right 2197 arrows_clockwise 1f503
  arrows_counterclockwise 1f504 art 1f3a8 articulated_lorry 1f69b artist_palette 1f3a8
  astonished 1f632 astonished_face 1f632 athletic_shoe 1f45f atm 1f3e7 atm_sign 1f3e7
  atom_symbol 269b auto_rickshaw 1f6fa automobile 1f697 avocado 1f951 axe 1fa93 b 1f171
  b_button_(blood_type) 1f171 baby_bottle 1f37c baby_chick 1f424 baby_symbol 1f6bc back 1f519
  back_arrow 1f519 bacon 1f953 badger 1f9a1 badminton 1f3f8
  badminton_racquet_and_shuttlecock 1f3f8 bagel 1f96f baggage_claim 1f6c4 baguette_bread 1f956
  balance_scale 2696 bald 1f9b2 bald_man 1f468-200d-1f9b2 bald_woman 1f469-200d-1f9b2
  ballet_shoes 1fa70 balloon 1f388 ballot_box_with_ballot 1f5f3 ballot_box_with_check 2611
  bamboo 1f38d banana 1f34c bangbang 203c banjo 1fa95 bank 1f3e6 bar_chart 1f4ca barber 1f488
  barber_pole 1f488 baseball 26be basket 1f9fa basketball 1f3c0 bat 1f987 bath 1f6c0 bathtub 1f6c1
  battery 1f50b beach_with_umbrella 1f3d6 beaming_face_with_smiling_eyes 1f601 bear 1f43b
  bear_face 1f43b beating_heart 1f493 bed 1f6cf bee 1f41d beer 1f37a beer_mug 1f37a beers 1f37b
  beetle 1f41e beginner 1f530 bell 1f514 bell_with_slash 1f515 bellhop_bell 1f6ce bento 1f371
  bento_box 1f371 beverage_box 1f9c3 bicycle 1f6b2 bicyclist 1f6b4 bike 1f6b2 bikini 1f459
  billed_cap 1f9e2 biohazard 2623 biohazard_sign 2623 bird 1f426 birthday 1f382
  birthday_cake 1f382 black_circle 26ab black_circle_for_record 23fa black_flag 1f3f4
  black_heart 1f5a4 black_joker 1f0cf black_large_square 2b1b
  black_left__pointing_double_triangle_with_vertical_bar 23ee black_medium-small_square 25fe
  black_medium_small_square 25fe black_medium_square 25fc black_nib 2712
  black_right__pointing_double_triangle_with_vertical_bar 23ed
  black_right__pointing_triangle_with_double_vertical_bar 23ef black_small_square 25aa
  black_square_button 1f532 black_square_for_stop 23f9 blossom 1f33c blowfish 1f421
  blue_book 1f4d8 blue_car 1f699 blue_circle 1f535 blue_heart 1f499 blue_square 1f7e6 blush 1f60a
  boar 1f417 boat 26f5 bomb 1f4a3 bone 1f9b4 book 1f4d6 bookmark 1f516 bookmark_tabs 1f4d1
  books 1f4da boom 1f4a5 boot 1f462 bottle_with_popping_cork 1f37e bouquet 1f490 bow 1f647
  bow_and_arrow 1f3f9 bowl_with_spoon 1f963 bowling 1f3b3 boxing_glove 1f94a brain 1f9e0
  bread 1f35e brick 1f9f1 bridge_at_night 1f309 briefcase 1f4bc briefs 1fa72 bright_button 1f506
  broccoli 1f966 broken_heart 1f494 broom 1f9f9 brown_circle 1f7e4 brown_heart 1f90e
  brown_square 1f7eb bug 1f41b building_construction 1f3d7 bulb 1f4a1 bullet_train 1f685
  bullettrain_front 1f685 bullettrain_side 1f684 burrito 1f32f bus 1f68c bus_stop 1f68f
  busstop 1f68f bust_in_silhouette 1f464 busts_in_silhouette 1f465 butter 1f9c8 butterfly 1f98b
  cactus 1f335 cake 1f370 calendar 1f4c6 calling 1f4f2 camel 1f42b camera 1f4f7
  camera_with_flash 1f4f8 camping 1f3d5 cancer 264b candle 1f56f candy 1f36c canned_food 1f96b
  canoe 1f6f6 capital_abcd 1f520 capricorn 2651 car 1f697 card_file_box 1f5c3 card_index 1f4c7
  card_index_dividers 1f5c2 carousel_horse 1f3a0 carp_streamer 1f38f carrot 1f955 castle 1f3f0
  cat 1f431 cat2 1f408 cat_face 1f431 cat_face_with_tears_of_joy 1f639
  cat_face_with_wry_smile 1f63c cd 1f4bf chains 26d3 chair 1fa91 chart 1f4b9
  chart_decreasing 1f4c9 chart_increasing 1f4c8 chart_increasing_with_yen 1f4b9
  chart_with_downwards_trend 1f4c9 chart_with_upwards_trend 1f4c8 checkered_flag 1f3c1
  cheese_wedge 1f9c0 chequered_flag 1f3c1 cherries 1f352 cherry_blossom 1f338 chess_pawn 265f
  chestnut 1f330 chicken 1f414 children_crossing 1f6b8 chipmunk 1f43f chocolate_bar 1f36b
  chopsticks 1f962 christmas_tree 1f384 church 26ea cigarette 1f6ac cinema 1f3a6 circled_m 24c2
  circus_tent 1f3aa city_sunrise 1f307 city_sunset 1f306 cityscape 1f3d9 cityscape_at_dusk 1f306
  cl 1f191 cl_button 1f191 clamp 1f5dc clap 1f44f clapper 1f3ac clapper_board 1f3ac
  classical_building 1f3db clinking_beer_mugs 1f37b clinking_glasses 1f942 clipboard 1f4cb
  clock1 1f550 clock10 1f559 clock1030 1f565 clock11 1f55a clock1130 1f566 clock12 1f55b
  clock1230 1f567 clock130 1f55c clock2 1f551 clock230 1f55d clock3 1f552 clock330 1f55e
  clock4 1f553 clock430 1f55f clock5 1f554 clock530 1f560 clock6 1f555 clock630 1f561 clock7 1f556
  clock730 1f562 clock8 1f557 clock830 1f563 clock9 1f558 clock930 1f564
  clockwise_vertical_arrows 1f503 closed_book 1f4d5 closed_lock_with_key 1f510
  closed_mailbox_with_lowered_flag 1f4ea closed_mailbox_with_raised_flag 1f4eb
  closed_umbrella 1f302 cloud 2601 cloud_with_lightning 1f329 cloud_with_lightning_and_rain 26c8
  cloud_with_rain 1f327 cloud_with_snow 1f328 cloud_with_tornado 1f32a clown_face 1f921
  club_suit 2663 clubs 2663 clutch_bag 1f45d coat 1f9e5 cocktail 1f378 cocktail_glass 1f378
  coconut 1f965 coffee 2615 coffin 26b0 cold_face 1f976 cold_sweat 1f630 collision 1f4a5
  comet 2604 compass 1f9ed compression 1f5dc computer 1f4bb computer_disk 1f4bd
  computer_mouse 1f5b1 confetti_ball 1f38a confounded 1f616 confounded_face 1f616 confused 1f615
  confused_face 1f615 congratulations 3297 construction 1f6a7 control_knobs 1f39b
  convenience_store 1f3ea cooked_rice 1f35a cookie 1f36a cooking 1f373 cool 1f192
  cool_button 1f192 cop 1f46e corn 1f33d couch_and_lamp 1f6cb counterclockwise_arrows_button 1f504
  couple 1f46b couple_with_heart 1f491 couple_with_heart_man_man 1f468-200d-2764-fe0f-200d-1f468
  couple_with_heart_woman_man 1f469-200d-2764-fe0f-200d-1f468
  couple_with_heart_woman_woman 1f469-200d-2764-fe0f-200d-1f469 couplekiss 1f48f cow 1f42e
  cow2 1f404 cow_face 1f42e cowboy_hat_face 1f920 crab 1f980 crayon 1f58d credit_card 1f4b3
  crescent_moon 1f319 cricket 1f997 cricket_bat_and_ball 1f3cf cricket_game 1f3cf crocodile 1f40a
  croissant 1f950 cross_mark 274c cross_mark_button 274e crossed_flags 1f38c crossed_swords 2694
  crown 1f451 cry 1f622 crying_cat_face 1f63f crying_face 1f622 crystal_ball 1f52e cucumber 1f952
  cup_with_straw 1f964 cupcake 1f9c1 cupid 1f498 curling_stone 1f94c
  curly-haired_man 1f468-200d-1f9b1 curly-haired_woman 1f469-200d-1f9b1 curly_hair 1f9b1
  curly_loop 27b0 currency_exchange 1f4b1 curry 1f35b curry_rice 1f35b custard 1f36e customs 1f6c3
  cut_of_meat 1f969 cyclone 1f300 dagger 1f5e1 dagger_knife 1f5e1 dancer 1f483 dancers 1f46f
  dango 1f361 dark_skin_tone 1f3ff dark_sunglasses 1f576 dart 1f3af dash 1f4a8 dashing_away 1f4a8
  date 1f4c5 deaf_person 1f9cf deciduous_tree 1f333 deer 1f98c delivery_truck 1f69a
  department_store 1f3ec derelict_house 1f3da derelict_house_building 1f3da desert 1f3dc
  desert_island 1f3dd desktop_computer 1f5a5 diamond_shape_with_a_dot_inside 1f4a0
  diamond_suit 2666 diamond_with_a_dot 1f4a0 diamonds 2666 dim_button 1f505 direct_hit 1f3af
  disappointed 1f61e disappointed_face 1f61e disappointed_relieved 1f625 diving_mask 1f93f
  diya_lamp 1fa94 dizzy 1f4ab dizzy_face 1f635 dna 1f9ec do_not_litter 1f6af dog 1f436 dog2 1f415
  dog_face 1f436 dollar 1f4b5 dollar_banknote 1f4b5 dolls 1f38e dolphin 1f42c door 1f6aa
  dotted_six-pointed_star 1f52f double_curly_loop 27bf double_exclamation_mark 203c
  double_vertical_bar 23f8 doughnut 1f369 dove 1f54a dove_of_peace 1f54a down-left_arrow 2199
  down-right_arrow 2198 down_arrow 2b07 downcast_face_with_sweat 1f613 downwards_button 1f53d
  dragon 1f409 dragon_face 1f432 dress 1f457 dromedary_camel 1f42a drooling_face 1f924
  drop_of_blood 1fa78 droplet 1f4a7 drum 1f941 duck 1f986 dumpling 1f95f dvd 1f4c0 e-mail 1f4e7
  e__mail 1f4e7 eagle 1f985 ear_of_corn 1f33d ear_of_rice 1f33e ear_with_hearing_aid 1f9bb
  earth_africa 1f30d earth_americas 1f30e earth_asia 1f30f egg 1f373 eggplant 1f346
  eight 38-fe0f-20e3 eight-pointed_star 2734 eight-spoked_asterisk 2733 eight-thirty 1f563
  eight_o’clock 1f557 eight_pointed_black_star 2734 eight_spoked_asterisk 2733 eject_button 23cf
  eject_symbol 23cf electric_plug 1f50c elephant 1f418 eleven-thirty 1f566 eleven_o’clock 1f55a
  email 2709 emoji_modifier_fitzpatrick_type__1__2 1f3fb emoji_modifier_fitzpatrick_type__3 1f3fc
  emoji_modifier_fitzpatrick_type__4 1f3fd emoji_modifier_fitzpatrick_type__5 1f3fe
  emoji_modifier_fitzpatrick_type__6 1f3ff end 1f51a end_arrow 1f51a
  england 1f3f4-e0067-e0062-e0065-e006e-e0067-e007f envelope 2709 envelope_with_arrow 1f4e9
  euro 1f4b6 euro_banknote 1f4b6 european_castle 1f3f0 european_post_office 1f3e4
  evergreen_tree 1f332 ewe 1f411 exclamation 2757 exclamation_mark 2757
  exclamation_question_mark 2049 exploding_head 1f92f expressionless 1f611
  expressionless_face 1f611 eye 1f441 eye_in_speech_bubble 1f441-fe0f-200d-1f5e8-fe0f
  eyeglasses 1f453 eyes 1f440 face_blowing_a_kiss 1f618 face_savoring_food 1f60b
  face_screaming_in_fear 1f631 face_vomiting 1f92e face_with_hand_over_mouth 1f92d
  face_with_head-bandage 1f915 face_with_head__bandage 1f915 face_with_medical_mask 1f637
  face_with_monocle 1f9d0 face_with_open_mouth 1f62e face_with_raised_eyebrow 1f928
  face_with_rolling_eyes 1f644 face_with_steam_from_nose 1f624 face_with_symbols_on_mouth 1f92c
  face_with_tears_of_joy 1f602 face_with_thermometer 1f912 face_with_tongue 1f61b
  face_without_mouth 1f636 facepunch 1f44a factory 1f3ed falafel 1f9c6 fallen_leaf 1f342
  family 1f46a family_man_boy 1f468-200d-1f466 family_man_boy_boy 1f468-200d-1f466-200d-1f466
  family_man_girl 1f468-200d-1f467 family_man_girl_boy 1f468-200d-1f467-200d-1f466
  family_man_girl_girl 1f468-200d-1f467-200d-1f467 family_man_man_boy 1f468-200d-1f468-200d-1f466
  family_man_man_boy_boy 1f468-200d-1f468-200d-1f466-200d-1f466
  family_man_man_girl 1f468-200d-1f468-200d-1f467
  family_man_man_girl_boy 1f468-200d-1f468-200d-1f467-200d-1f466
  family_man_man_girl_girl 1f468-200d-1f468-200d-1f467-200d-1f467
  family_man_woman_boy 1f468-200d-1f469-200d-1f466
  family_man_woman_boy_boy 1f468-200d-1f469-200d-1f466-200d-1f466
  family_man_woman_girl 1f468-200d-1f469-200d-1f467
  family_man_woman_girl_boy 1f468-200d-1f469-200d-1f467-200d-1f466
  family_man_woman_girl_girl 1f468-200d-1f469-200d-1f467-200d-1f467
  family_woman_boy 1f469-200d-1f466 family_woman_boy_boy 1f469-200d-1f466-200d-1f466
  family_woman_girl 1f469-200d-1f467 family_woman_girl_boy 1f469-200d-1f467-200d-1f466
  family_woman_girl_girl 1f469-200d-1f467-200d-1f467
  family_woman_woman_boy 1f469-200d-1f469-200d-1f466
  family_woman_woman_boy_boy 1f469-200d-1f469-200d-1f466-200d-1f466
  family_woman_woman_girl 1f469-200d-1f469-200d-1f467
  family_woman_woman_girl_boy 1f469-200d-1f469-200d-1f467-200d-1f466
  family_woman_woman_girl_girl 1f469-200d-1f469-200d-1f467-200d-1f467 fast-forward_button 23e9
  fast_down_button 23ec fast_forward 23e9 fast_reverse_button 23ea fast_up_button 23eb fax 1f4e0
  fax_machine 1f4e0 fearful 1f628 fearful_face 1f628 feet 1f43e female_sign 2640
  ferris_wheel 1f3a1 ferry 26f4 field_hockey 1f3d1 field_hockey_stick_and_ball 1f3d1
  file_cabinet 1f5c4 file_folder 1f4c1 film_frames 1f39e film_projector 1f4fd fire 1f525
  fire_engine 1f692 fire_extinguisher 1f9ef firecracker 1f9e8 fireworks 1f386
  first_quarter_moon 1f313 first_quarter_moon_face 1f31b first_quarter_moon_with_face 1f31b
  fish 1f41f fish_cake 1f365 fish_cake_with_swirl 1f365 fishing_pole 1f3a3
  fishing_pole_and_fish 1f3a3 fist 270a five 35-fe0f-20e3 five-thirty 1f560 five_o’clock 1f554
  flag_in_hole 26f3 flags 1f38f flamingo 1f9a9 flashlight 1f526 flat_shoe 1f97f fleur-de-lis 269c
  fleur__de__lis 269c flipper 1f42c floppy_disk 1f4be flower_playing_cards 1f3b4 flushed 1f633
  flushed_face 1f633 flying_disc 1f94f flying_saucer 1f6f8 fog 1f32b foggy 1f301 foot 1f9b6
  football 1f3c8 footprints 1f463 fork_and_knife 1f374 fork_and_knife_with_plate 1f37d
  fortune_cookie 1f960 fountain 26f2 fountain_pen 1f58b four 34-fe0f-20e3 four-thirty 1f55f
  four_leaf_clover 1f340 four_o’clock 1f553 fox_face 1f98a frame_with_picture 1f5bc
  framed_picture 1f5bc free 1f193 free_button 1f193 french_fries 1f35f fried_shrimp 1f364
  fries 1f35f frog 1f438 frog_face 1f438 front-facing_baby_chick 1f425 frowning 1f626
  frowning_face 2639 frowning_face_with_open_mouth 1f626 fuel_pump 26fd fuelpump 26fd
  full_moon 1f315 full_moon_face 1f31d full_moon_with_face 1f31d funeral_urn 26b1 game_die 1f3b2
  garlic 1f9c4 gear 2699 gem 1f48e gem_stone 1f48e gemini 264a genie 1f9de ghost 1f47b gift 1f381
  gift_heart 1f49d giraffe 1f992 glass_of_milk 1f95b glasses 1f453 globe_showing_americas 1f30e
  globe_showing_asia-australia 1f30f globe_showing_europe-africa 1f30d globe_with_meridians 1f310
  gloves 1f9e4 glowing_star 1f31f goal_net 1f945 goat 1f410 goblin 1f47a goggles 1f97d golf 26f3
  golfer 1f3cc gorilla 1f98d graduation_cap 1f393 grapes 1f347 green_apple 1f34f green_book 1f4d7
  green_circle 1f7e2 green_heart 1f49a green_salad 1f957 green_square 1f7e9 grey_exclamation 2755
  grey_question 2754 grimacing 1f62c grimacing_face 1f62c grin 1f601 grinning 1f600
  grinning_cat_face 1f63a grinning_cat_face_with_smiling_eyes 1f638 grinning_face 1f600
  grinning_face_with_big_eyes 1f603 grinning_face_with_smiling_eyes 1f604
  grinning_face_with_sweat 1f605 grinning_squinting_face 1f606 growing_heart 1f497 guardsman 1f482
  guide_dog 1f9ae guitar 1f3b8 gun 1f52b haircut 1f487 hamburger 1f354 hammer 1f528
  hammer_and_pick 2692 hammer_and_wrench 1f6e0 hamster 1f439 hamster_face 1f439 hand 270b
  handbag 1f45c handshake 1f91d hankey 1f4a9 hatched_chick 1f425 hatching_chick 1f423
  headphone 1f3a7 headphones 1f3a7 hear-no-evil_monkey 1f649 hear_no_evil 1f649 heart 2764
  heart_decoration 1f49f heart_eyes 1f60d heart_eyes_cat 1f63b heart_suit 2665
  heart_with_arrow 1f498 heart_with_ribbon 1f49d heartbeat 1f493 heartpulse 1f497 hearts 2665
  heavy_check_mark 2714 heavy_division_sign 2797 heavy_dollar_sign 1f4b2
  heavy_exclamation_mark 2757 heavy_heart_exclamation 2763
  heavy_heart_exclamation_mark_ornament 2763 heavy_large_circle 2b55 heavy_minus_sign 2796
  heavy_multiplication_x 2716 heavy_plus_sign 2795 hedgehog 1f994 helicopter 1f681
  helm_symbol 2388 helmet_with_white_cross 26d1 herb 1f33f hibiscus 1f33a high-heeled_shoe 1f460
  high-speed_train 1f684 high_brightness 1f506 high_heel 1f460 high_voltage 26a1 hiking_boot 1f97e
  hindu_temple 1f6d5 hippopotamus 1f99b hocho 1f52a hole 1f573 honey_pot 1f36f honeybee 1f41d
  horizontal_traffic_light 1f6a5 horse 1f434 horse_face 1f434 hospital 1f3e5 hot_beverage 2615
  hot_dog 1f32d hot_face 1f975 hot_pepper 1f336 hot_springs 2668 hotel 1f3e8 hotsprings 2668
  hourglass 231b hourglass_done 231b hourglass_flowing_sand 23f3 hourglass_not_done 23f3
  house 1f3e0 house_buildings 1f3d8 house_with_garden 1f3e1 houses 1f3d8 hugging_face 1f917
  hundred_points 1f4af hushed 1f62f hushed_face 1f62f ice 1f9ca ice_cream 1f368 ice_hockey 1f3d2
  ice_hockey_stick_and_puck 1f3d2 ice_skate 26f8 icecream 1f366 id 1f194 id_button 1f194
  ideograph_advantage 1f250 imp 1f47f inbox_tray 1f4e5 incoming_envelope 1f4e8 infinity 267e
  information 2139 information_desk_person 1f481 information_source 2139 innocent 1f607
  input_latin_letters 1f524 input_latin_lowercase 1f521 input_latin_uppercase 1f520
  input_numbers 1f522 input_symbols 1f523 interrobang 2049 iphone 1f4f1 izakaya_lantern 1f3ee
  jack-o-lantern 1f383 jack_o_lantern 1f383 japan 1f5fe japanese_acceptable_button 1f251
  japanese_application_button 1f238 japanese_bargain_button 1f250 japanese_castle 1f3ef
  japanese_congratulations_button 3297 japanese_discount_button 1f239 japanese_dolls 1f38e
  japanese_free_of_charge_button 1f21a japanese_goblin 1f47a japanese_here_button 1f201
  japanese_monthly_amount_button 1f237 japanese_no_vacancy_button 1f235
  japanese_not_free_of_charge_button 1f236 japanese_ogre 1f479
  japanese_open_for_business_button 1f23a japanese_passing_grade_button 1f234
  japanese_post_office 1f3e3 japanese_prohibited_button 1f232 japanese_reserved_button 1f22f
  japanese_secret_button 3299 japanese_service_charge_button 1f202
  japanese_symbol_for_beginner 1f530 japanese_vacancy_button 1f233 jeans 1f456 jigsaw 1f9e9
  joker 1f0cf joy 1f602 joy_cat 1f639 joystick 1f579 kaaba 1f54b kangaroo 1f998 key 1f511
  keyboard 2328 keycap_# 23-fe0f-20e3 keycap_* 2a-fe0f-20e3 keycap_0 30-fe0f-20e3
  keycap_1 31-fe0f-20e3 keycap_10 1f51f keycap_2 32-fe0f-20e3 keycap_3 33-fe0f-20e3
  keycap_4 34-fe0f-20e3 keycap_5 35-fe0f-20e3 keycap_6 36-fe0f-20e3 keycap_7 37-fe0f-20e3
  keycap_8 38-fe0f-20e3 keycap_9 39-fe0f-20e3 keycap_asterisk 2a-20e3 keycap_digit_eight 38-20e3
  keycap_digit_five 35-20e3 keycap_digit_four 34-20e3 keycap_digit_nine 39-20e3
  keycap_digit_one 31-20e3 keycap_digit_seven 37-20e3 keycap_digit_six 36-20e3
  keycap_digit_three 33-20e3 keycap_digit_two 32-20e3 keycap_digit_zero 30-20e3
  keycap_number_sign 23-20e3 kick_scooter 1f6f4 kimono 1f458 kiss 1f48b
  kiss_man_man 1f468-200d-2764-fe0f-200d-1f48b-200d-1f468 kiss_mark 1f48b
  kiss_woman_man 1f469-200d-2764-fe0f-200d-1f48b-200d-1f468
  kiss_woman_woman 1f469-200d-2764-fe0f-200d-1f48b-200d-1f469 kissing 1f617 kissing_cat 1f63d
  kissing_cat_face 1f63d kissing_closed_eyes 1f61a kissing_face 1f617
  kissing_face_with_closed_eyes 1f61a kissing_face_with_smiling_eyes 1f619 kissing_heart 1f618
  kissing_smiling_eyes 1f619 kitchen_knife 1f52a kite 1fa81 kiwi_fruit 1f95d knife 1f52a
  koala 1f428 koko 1f201 lab_coat 1f97c label 1f3f7 lacrosse 1f94d lady_beetle 1f41e lantern 1f3ee
  laptop_computer 1f4bb large_blue_circle 1f535 large_blue_diamond 1f537
  large_orange_diamond 1f536 last_quarter_moon 1f317 last_quarter_moon_face 1f31c
  last_quarter_moon_with_face 1f31c last_track_button 23ee latin_cross 271d laughing 1f606
  leaf_fluttering_in_wind 1f343 leafy_green 1f96c leaves 1f343 ledger 1f4d2 left-right_arrow 2194
  left_arrow 2b05 left_arrow_curving_right 21aa left_luggage 1f6c5 left_right_arrow 2194
  left_speech_bubble 1f5e8 leftwards_arrow_with_hook 21a9 leg 1f9b5 lemon 1f34b leo 264c
  leopard 1f406 level_slider 1f39a libra 264e light_bulb 1f4a1 light_rail 1f688
  light_skin_tone 1f3fb link 1f517 linked_paperclips 1f587 lion_face 1f981 lips 1f444
  lipstick 1f484 litter_in_bin_sign 1f6ae lizard 1f98e llama 1f999 lobster 1f99e lock 1f512
  lock_with_ink_pen 1f50f locked 1f512 locked_with_key 1f510 locked_with_pen 1f50f
  locomotive 1f682 lollipop 1f36d loop 27bf lotion_bottle 1f9f4 loud_sound 1f50a
  loudly_crying_face 1f62d loudspeaker 1f4e2 love_hotel 1f3e9 love_letter 1f48c
  low_brightness 1f505 lower_left_ballpoint_pen 1f58a lower_left_crayon 1f58d
  lower_left_fountain_pen 1f58b lower_left_paintbrush 1f58c luggage 1f9f3 lying_face 1f925 m 24c2
  mag 1f50d mag_right 1f50e magnet 1f9f2 magnifying_glass_tilted_left 1f50d
  magnifying_glass_tilted_right 1f50e mahjong 1f004 mahjong_red_dragon 1f004 mailbox 1f4eb
  mailbox_closed 1f4ea mailbox_with_mail 1f4ec mailbox_with_no_mail 1f4ed male_sign 2642
  man_and_woman_holding_hands 1f46b man_genie 1f9de-200d-2642-fe0f
  man_in_business_suit_levitating 1f574 man_in_manual_wheelchair 1f468-200d-1f9bd
  man_in_motorized_wheelchair 1f468-200d-1f9bc man_with_gua_pi_mao 1f472
  man_with_probing_cane 1f468-200d-1f9af man_with_turban 1f473 man_zombie 1f9df-200d-2642-fe0f
  mango 1f96d mans_shoe 1f45e mantelpiece_clock 1f570 manual_wheelchair 1f9bd man’s_shoe 1f45e
  map_of_japan 1f5fe maple_leaf 1f341 martial_arts_uniform 1f94b mask 1f637 massage 1f486
  mate 1f9c9 meat_on_bone 1f356 mechanical_arm 1f9be mechanical_leg 1f9bf medical_symbol 2695
  medium_dark_skin_tone 1f3fe medium_light_skin_tone 1f3fc medium_skin_tone 1f3fd mega 1f4e3
  megaphone 1f4e3 melon 1f348 memo 1f4dd men_with_bunny_ears 1f46f-200d-2642-fe0f
  men_wrestling 1f93c-200d-2642-fe0f menorah 1f54e menorah_with_nine_branches 1f54e mens 1f6b9
  men’s_room 1f6b9 metro 1f687 microbe 1f9a0 microphone 1f3a4 microscope 1f52c
  military_medal 1f396 milky_way 1f30c minibus 1f690 minidisc 1f4bd moai 1f5ff mobile_phone 1f4f1
  mobile_phone_off 1f4f4 mobile_phone_with_arrow 1f4f2 money-mouth_face 1f911
  money__mouth_face 1f911 money_bag 1f4b0 money_with_wings 1f4b8 moneybag 1f4b0 monkey 1f412
  monkey_face 1f435 monorail 1f69d moon 1f314 moon_cake 1f96e moon_viewing_ceremony 1f391
  mortar_board 1f393 mosque 1f54c mosquito 1f99f motor_boat 1f6e5 motor_scooter 1f6f5
  motorcycle 1f3cd motorized_wheelchair 1f9bc motorway 1f6e3 mount_fuji 1f5fb mountain 26f0
  mountain_bicyclist 1f6b5 mountain_cableway 1f6a0 mountain_railway 1f69e mouse 1f42d mouse2 1f401
  mouse_face 1f42d mouth 1f444 movie_camera 1f3a5 moyai 1f5ff muscle 1f4aa mushroom 1f344
  musical_keyboard 1f3b9 musical_note 1f3b5 musical_notes 1f3b6 musical_score 1f3bc mute 1f507
  muted_speaker 1f507 nail_care 1f485 name_badge 1f4db national_park 1f3de nauseated_face 1f922
  nazar_amulet 1f9ff necktie 1f454 negative_squared_cross_mark 274e nerd_face 1f913
  neutral_face 1f610 new 1f195 new_button 1f195 new_moon 1f311 new_moon_face 1f31a
  new_moon_with_face 1f31a newspaper 1f4f0 next_track_button 23ed ng 1f196 ng_button 1f196
  night_with_stars 1f303 nine 39-fe0f-20e3 nine-thirty 1f564 nine_o’clock 1f558 no_bell 1f515
  no_bicycles 1f6b3 no_entry 26d4 no_entry_sign 1f6ab no_good 1f645 no_littering 1f6af
  no_mobile_phones 1f4f5 no_mouth 1f636 no_one_under_eighteen 1f51e no_pedestrians 1f6b7
  no_smoking 1f6ad non-potable_water 1f6b1 non__potable_water 1f6b1 notebook 1f4d3
  notebook_with_decorative_cover 1f4d4 notes 1f3b6 nut_and_bolt 1f529 o 2b55 o2 1f17e
  o_button_(blood_type) 1f17e ocean 1f30a octopus 1f419 oden 1f362 office 1f3e2
  office_building 1f3e2 ogre 1f479 oil_drum 1f6e2 ok 1f197 ok_button 1f197 ok_woman 1f646
  old_key 1f5dd older_man 1f474 older_woman 1f475 om 1f549 om_symbol 1f549 on 1f51b
  on!_arrow 1f51b oncoming_automobile 1f698 oncoming_bus 1f68d oncoming_police_car 1f694
  oncoming_taxi 1f696 one 31-fe0f-20e3 one-piece_swimsuit 1fa71 one-thirty 1f55c one_o’clock 1f550
  onion 1f9c5 open_book 1f4d6 open_file_folder 1f4c2 open_mailbox_with_lowered_flag 1f4ed
  open_mailbox_with_raised_flag 1f4ec open_mouth 1f62e ophiuchus 26ce optical_disk 1f4bf
  orange_book 1f4d9 orange_circle 1f7e0 orange_heart 1f9e1 orange_square 1f7e7 orangutan 1f9a7
  orthodox_cross 2626 otter 1f9a6 outbox_tray 1f4e4 owl 1f989 ox 1f402 oyster 1f9aa p_button 1f17f
  package 1f4e6 page_facing_up 1f4c4 page_with_curl 1f4c3 pager 1f4df paintbrush 1f58c
  palm_tree 1f334 pancakes 1f95e panda_face 1f43c paperclip 1f4ce parking 1f17f parrot 1f99c
  part_alternation_mark 303d partly_sunny 26c5 party_popper 1f389 partying_face 1f973
  passenger_ship 1f6f3 passport_control 1f6c2 pause_button 23f8 paw_prints 1f43e peace_symbol 262e
  peach 1f351 peacock 1f99a peanuts 1f95c pear 1f350 pen 1f58a pencil 1f4dd pencil2 270f
  penguin 1f427 pensive 1f614 pensive_face 1f614 people_holding_hands 1f9d1-200d-1f91d-200d-1f9d1
  people_with_bunny_ears 1f46f people_wrestling 1f93c performing_arts 1f3ad persevere 1f623
  persevering_face 1f623 person_fencing 1f93a person_kneeling 1f9ce person_standing 1f9cd
  person_with_ball 26f9 person_with_blond_hair 1f471 person_with_pouting_face 1f64e
  petri_dish 1f9eb phone 260e pick 26cf pie 1f967 pig 1f437 pig2 1f416 pig_face 1f437
  pig_nose 1f43d pile_of_poo 1f4a9 pill 1f48a pinching_hand 1f90f pine_decoration 1f38d
  pineapple 1f34d ping_pong 1f3d3 pirate_flag 1f3f4-200d-2620-fe0f pisces 2653 pistol 1f52b
  pizza 1f355 place_of_worship 1f6d0 play_button 25b6 play_or_pause_button 23ef
  pleading_face 1f97a point_down 1f447 point_left 1f448 point_right 1f449 point_up 261d
  point_up_2 1f446 police_car 1f693 police_car_light 1f6a8 poodle 1f429 pool_8_ball 1f3b1
  poop 1f4a9 popcorn 1f37f post_office 1f3e3 postal_horn 1f4ef postbox 1f4ee pot_of_food 1f372
  potable_water 1f6b0 potato 1f954 pouch 1f45d poultry_leg 1f357 pound 1f4b7 pound_banknote 1f4b7
  pouting_cat 1f63e pouting_cat_face 1f63e pouting_face 1f621 pray 1f64f prayer_beads 1f4ff
  pretzel 1f968 printer 1f5a8 probing_cane 1f9af prohibited 1f6ab punch 1f44a purple_circle 1f7e3
  purple_heart 1f49c purple_square 1f7ea purse 1f45b pushpin 1f4cc put_litter_in_its_place 1f6ae
  question 2753 question_mark 2753 rabbit 1f430 rabbit2 1f407 rabbit_face 1f430 raccoon 1f99d
  racehorse 1f40e racing_car 1f3ce racing_motorcycle 1f3cd radio 1f4fb radio_button 1f518
  radioactive 2622 radioactive_sign 2622 rage 1f621 railway_car 1f683 railway_track 1f6e4
  rainbow 1f308 rainbow_flag 1f3f3-fe0f-200d-1f308 raised_hand_with_fingers_splayed 1f590
  raised_hand_with_part_between_middle_and_ring_fingers 1f596 raised_hands 1f64c
  raising_hand 1f64b ram 1f40f ramen 1f35c rat 1f400 razor 1fa92 receipt 1f9fe record_button 23fa
  recycle 267b recycling_symbol 267b red-haired_man 1f468-200d-1f9b0
  red-haired_woman 1f469-200d-1f9b0 red_apple 1f34e red_car 1f697 red_circle 1f534
  red_envelope 1f9e7 red_hair 1f9b0 red_heart 2764 red_paper_lantern 1f3ee red_square 1f7e5
  red_triangle_pointed_down 1f53b red_triangle_pointed_up 1f53a regional_indicator_a 1f1e6
  regional_indicator_b 1f1e7 regional_indicator_c 1f1e8 regional_indicator_d 1f1e9
  regional_indicator_e 1f1ea regional_indicator_f 1f1eb regional_indicator_g 1f1ec
  regional_indicator_h 1f1ed regional_indicator_i 1f1ee regional_indicator_j 1f1ef
  regional_indicator_k 1f1f0 regional_indicator_l 1f1f1 regional_indicator_m 1f1f2
  regional_indicator_n 1f1f3 regional_indicator_o 1f1f4 regional_indicator_p 1f1f5
  regional_indicator_q 1f1f6 regional_indicator_r 1f1f7 regional_indicator_s 1f1f8
  regional_indicator_symbol_letter_a 1f1e6 regional_indicator_symbol_letter_b 1f1e7
  regional_indicator_symbol_letter_c 1f1e8 regional_indicator_symbol_letter_d 1f1e9
  regional_indicator_symbol_letter_e 1f1ea regional_indicator_symbol_letter_f 1f1eb
  regional_indicator_symbol_letter_g 1f1ec regional_indicator_symbol_letter_h 1f1ed
  regional_indicator_symbol_letter_i 1f1ee regional_indicator_symbol_letter_j 1f1ef
  regional_indicator_symbol_letter_k 1f1f0 regional_indicator_symbol_letter_l 1f1f1
  regional_indicator_symbol_letter_m 1f1f2 regional_indicator_symbol_letter_n 1f1f3
  regional_indicator_symbol_letter_o 1f1f4 regional_indicator_symbol_letter_p 1f1f5
  regional_indicator_symbol_letter_q 1f1f6 regional_indicator_symbol_letter_r 1f1f7
  regional_indicator_symbol_letter_s 1f1f8 regional_indicator_symbol_letter_t 1f1f9
  regional_indicator_symbol_letter_u 1f1fa regional_indicator_symbol_letter_v 1f1fb
  regional_indicator_symbol_letter_w 1f1fc regional_indicator_symbol_letter_x 1f1fd
  regional_indicator_symbol_letter_y 1f1fe regional_indicator_symbol_letter_z 1f1ff
  regional_indicator_t 1f1f9 regional_indicator_u 1f1fa regional_indicator_v 1f1fb
  regional_indicator_w 1f1fc regional_indicator_x 1f1fd regional_indicator_y 1f1fe
  regional_indicator_z 1f1ff registered ae relaxed 263a relieved 1f60c relieved_face 1f60c
  reminder_ribbon 1f397 repeat 1f501 repeat_button 1f501 repeat_one 1f502
  repeat_single_button 1f502 rescue_worker’s_helmet 26d1 restroom 1f6bb reverse_button 25c0
  reversed_hand_with_middle_finger_extended 1f595 revolving_hearts 1f49e rewind 23ea
  rhinoceros 1f98f ribbon 1f380 rice 1f35a rice_ball 1f359 rice_cracker 1f358 rice_scene 1f391
  right_anger_bubble 1f5ef right_arrow 27a1 right_arrow_curving_down 2935
  right_arrow_curving_left 21a9 right_arrow_curving_up 2934 ring 1f48d ringed_planet 1fa90
  roasted_sweet_potato 1f360 robot 1f916 robot_face 1f916 rocket 1f680 roll_of_paper 1f9fb
  rolled-up_newspaper 1f5de rolled__up_newspaper 1f5de roller_coaster 1f3a2
  rolling_on_the_floor_laughing 1f923 rooster 1f413 rose 1f339 rosette 1f3f5 rotating_light 1f6a8
  round_pushpin 1f4cd rowboat 1f6a3 rugby_football 1f3c9 runner 1f3c3 running 1f3c3
  running_shirt 1f3bd running_shirt_with_sash 1f3bd running_shoe 1f45f sa 1f202
  sad_but_relieved_face 1f625 safety_pin 1f9f7 safety_vest 1f9ba sagittarius 2650 sailboat 26f5
  sake 1f376 salt 1f9c2 sandal 1f461 sandwich 1f96a santa 1f385 sari 1f97b satellite 1f4e1
  satellite_antenna 1f4e1 satisfied 1f606 sauropod 1f995 saxophone 1f3b7 scales 2696 scarf 1f9e3
  school 1f3eb school_backpack 1f392 school_satchel 1f392 scissors 2702 scorpio 264f
  scorpion 1f982 scorpius 264f scotland 1f3f4-e0067-e0062-e0073-e0063-e0074-e007f scream 1f631
  scream_cat 1f640 scroll 1f4dc seat 1f4ba secret 3299 see-no-evil_monkey 1f648 see_no_evil 1f648
  seedling 1f331 service_dog 1f415-200d-1f9ba seven 37-fe0f-20e3 seven-thirty 1f562
  seven_o’clock 1f556 shallow_pan_of_food 1f958 shamrock 2618 shark 1f988 shaved_ice 1f367
  sheaf_of_rice 1f33e sheep 1f411 shell 1f41a shield 1f6e1 shinto_shrine 26e9 ship 1f6a2
  shirt 1f455 shit 1f4a9 shoe 1f45e shooting_star 1f320 shopping_bags 1f6cd shopping_cart 1f6d2
  shortcake 1f370 shorts 1fa73 shower 1f6bf shrimp 1f990 shuffle_tracks_button 1f500
  shushing_face 1f92b signal_strength 1f4f6 six 36-fe0f-20e3 six-thirty 1f561 six_o’clock 1f555
  six_pointed_star 1f52f skateboard 1f6f9 ski 1f3bf skier 26f7 skis 1f3bf skull 1f480
  skull_and_crossbones 2620 skunk 1f9a8 sled 1f6f7 sleeping 1f634 sleeping_accommodation 1f6cc
  sleeping_face 1f634 sleepy 1f62a sleepy_face 1f62a sleuth_or_spy 1f575
  slightly_frowning_face 1f641 slightly_smiling_face 1f642 slot_machine 1f3b0 sloth 1f9a5
  small_airplane 1f6e9 small_blue_diamond 1f539 small_orange_diamond 1f538
  small_red_triangle 1f53a small_red_triangle_down 1f53b smile 1f604 smile_cat 1f638 smiley 1f603
  smiley_cat 1f63a smiling_cat_face_with_heart-eyes 1f63b smiling_face 263a
  smiling_face_with_3_hearts 1f970 smiling_face_with_halo 1f607 smiling_face_with_heart-eyes 1f60d
  smiling_face_with_horns 1f608 smiling_face_with_smiling_eyes 1f60a
  smiling_face_with_sunglasses 1f60e smiling_imp 1f608 smirk 1f60f smirk_cat 1f63c
  smirking_face 1f60f smoking 1f6ac snail 1f40c snake 1f40d sneezing_face 1f927
  snow-capped_mountain 1f3d4 snow_capped_mountain 1f3d4 snowflake 2744 snowman 2603
  snowman_without_snow 26c4 soap 1f9fc sob 1f62d soccer 26bd soccer_ball 26bd socks 1f9e6
  soft_ice_cream 1f366 softball 1f94e soon 1f51c soon_arrow 1f51c sos 1f198 sos_button 1f198
  sound 1f509 space_invader 1f47e spade_suit 2660 spades 2660 spaghetti 1f35d sparkle 2747
  sparkler 1f387 sparkles 2728 sparkling_heart 1f496 speak-no-evil_monkey 1f64a
  speak_no_evil 1f64a speaker 1f508 speaker_high_volume 1f50a speaker_low_volume 1f508
  speaker_medium_volume 1f509 speaking_head 1f5e3 speaking_head_in_silhouette 1f5e3
  speech_balloon 1f4ac speedboat 1f6a4 spider 1f577 spider_web 1f578 spiral_calendar 1f5d3
  spiral_calendar_pad 1f5d3 spiral_note_pad 1f5d2 spiral_notepad 1f5d2 spiral_shell 1f41a
  sponge 1f9fd spoon 1f944 sport_utility_vehicle 1f699 sports_medal 1f3c5 spouting_whale 1f433
  squid 1f991 squinting_face_with_tongue 1f61d stadium 1f3df star 2b50 star-struck 1f929
  star2 1f31f star_and_crescent 262a star_of_david 2721 stars 1f320 station 1f689
  statue_of_liberty 1f5fd steam_locomotive 1f682 steaming_bowl 1f35c stethoscope 1fa7a stew 1f372
  stop_button 23f9 stop_sign 1f6d1 stopwatch 23f1 straight_ruler 1f4cf strawberry 1f353
  stuck_out_tongue 1f61b stuck_out_tongue_closed_eyes 1f61d stuck_out_tongue_winking_eye 1f61c
  studio_microphone 1f399 stuffed_flatbread 1f959 sun 2600 sun_behind_cloud 26c5
  sun_behind_large_cloud 1f325 sun_behind_rain_cloud 1f326 sun_behind_small_cloud 1f324
  sun_with_face 1f31e sunflower 1f33b sunglasses 1f60e sunny 2600 sunrise 1f305
  sunrise_over_mountains 1f304 sunset 1f307 superhero 1f9b8 supervillain 1f9b9 surfer 1f3c4
  sushi 1f363 suspension_railway 1f69f swan 1f9a2 sweat 1f613 sweat_droplets 1f4a6
  sweat_drops 1f4a6 sweat_smile 1f605 sweet_potato 1f360 swimmer 1f3ca symbols 1f523
  synagogue 1f54d syringe 1f489 t-rex 1f996 t-shirt 1f455 table_tennis_paddle_and_ball 1f3d3
  taco 1f32e tada 1f389 takeout_box 1f961 tanabata_tree 1f38b tangerine 1f34a taurus 2649
  taxi 1f695 tea 1f375 teacup_without_handle 1f375 tear-off_calendar 1f4c6 teddy_bear 1f9f8
  telephone 260e telephone_receiver 1f4de telescope 1f52d television 1f4fa ten 1f51f
  ten-thirty 1f565 ten_o’clock 1f559 tennis 1f3be tent 26fa test_tube 1f9ea thermometer 1f321
  thinking_face 1f914 thought_balloon 1f4ad thread 1f9f5 three 33-fe0f-20e3 three-thirty 1f55e
  three_button_mouse 1f5b1 three_o’clock 1f552 thumbsdown 1f44e thumbsup 1f44d
  thunder_cloud_and_rain 26c8 ticket 1f3ab tiger 1f42f tiger2 1f405 tiger_face 1f42f
  timer_clock 23f2 tired_face 1f62b tm 2122 toilet 1f6bd tokyo_tower 1f5fc tomato 1f345
  tongue 1f445 toolbox 1f9f0 tooth 1f9b7 top 1f51d top_arrow 1f51d top_hat 1f3a9 tophat 1f3a9
  tornado 1f32a trackball 1f5b2 tractor 1f69c trade_mark 2122 traffic_light 1f6a5 train 1f68b
  train2 1f686 tram 1f68a tram_car 1f68b triangular_flag 1f6a9 triangular_flag_on_post 1f6a9
  triangular_ruler 1f4d0 trident 1f531 trident_emblem 1f531 triumph 1f624 trolleybus 1f68e
  trophy 1f3c6 tropical_drink 1f379 tropical_fish 1f420 truck 1f69a trumpet 1f3ba tshirt 1f455
  tulip 1f337 tumbler_glass 1f943 turkey 1f983 turtle 1f422 tv 1f4fa twelve-thirty 1f567
  twelve_o’clock 1f55b twisted_rightwards_arrows 1f500 two 32-fe0f-20e3 two-hump_camel 1f42b
  two-thirty 1f55d two_hearts 1f495 two_men_holding_hands 1f46c two_o’clock 1f551
  two_women_holding_hands 1f46d u5272 1f239 u5408 1f234 u55b6 1f23a u6307 1f22f u6708 1f237
  u6709 1f236 u6e80 1f235 u7121 1f21a u7533 1f238 u7981 1f232 u7a7a 1f233 umbrella 2602
  umbrella_on_ground 26f1 umbrella_with_rain_drops 2614 unamused 1f612 unamused_face 1f612
  underage 1f51e unicorn_face 1f984 unlock 1f513 unlocked 1f513 up 1f199 up!_button 1f199
  up-down_arrow 2195 up-left_arrow 2196 up-right_arrow 2197 up_arrow 2b06 upside-down_face 1f643
  upside__down_face 1f643 upwards_button 1f53c v 270c vertical_traffic_light 1f6a6 vhs 1f4fc
  vibration_mode 1f4f3 video_camera 1f4f9 video_game 1f3ae videocassette 1f4fc violin 1f3bb
  virgo 264d volcano 1f30b volleyball 1f3d0 vs 1f19a vs_button 1f19a waffle 1f9c7
  wales 1f3f4-e0067-e0062-e0077-e006c-e0073-e007f walking 1f6b6 waning_crescent_moon 1f318
  waning_gibbous_moon 1f316 warning 26a0 wastebasket 1f5d1 watch 231a water_buffalo 1f403
  water_closet 1f6be water_wave 1f30a watermelon 1f349 wave 1f44b waving_black_flag 1f3f4
  waving_white_flag 1f3f3 wavy_dash 3030 waxing_crescent_moon 1f312 waxing_gibbous_moon 1f314
  wc 1f6be weary 1f629 weary_cat_face 1f640 weary_face 1f629 wedding 1f492 weight_lifter 1f3cb
  whale 1f433 whale2 1f40b wheel_of_dharma 2638 wheelchair 267f wheelchair_symbol 267f
  white-haired_man 1f468-200d-1f9b3 white-haired_woman 1f469-200d-1f9b3 white_check_mark 2705
  white_circle 26aa white_exclamation_mark 2755 white_flag 1f3f3 white_flower 1f4ae
  white_frowning_face 2639 white_hair 1f9b3 white_heart 1f90d white_heavy_check_mark 2705
  white_large_square 2b1c white_medium-small_square 25fd white_medium_small_square 25fd
  white_medium_square 25fb white_medium_star 2b50 white_question_mark 2754 white_small_square 25ab
  white_square_button 1f533 white_sun_behind_cloud 1f325 white_sun_behind_cloud_with_rain 1f326
  white_sun_with_small_cloud 1f324 wilted_flower 1f940 wind_blowing_face 1f32c wind_chime 1f390
  wind_face 1f32c wine_glass 1f377 wink 1f609 winking_face 1f609 winking_face_with_tongue 1f61c
  wolf 1f43a wolf_face 1f43a woman_genie 1f9de-200d-2640-fe0f
  woman_in_manual_wheelchair 1f469-200d-1f9bd woman_in_motorized_wheelchair 1f469-200d-1f9bc
  woman_with_probing_cane 1f469-200d-1f9af woman_zombie 1f9df-200d-2640-fe0f womans_clothes 1f45a
  womans_hat 1f452 woman’s_boot 1f462 woman’s_clothes 1f45a woman’s_hat 1f452 woman’s_sandal 1f461
  women_with_bunny_ears 1f46f-200d-2640-fe0f women_wrestling 1f93c-200d-2640-fe0f womens 1f6ba
  women’s_room 1f6ba woozy_face 1f974 world_map 1f5fa worried 1f61f worried_face 1f61f
  wrapped_gift 1f381 wrench 1f527 x 274c yarn 1f9f6 yawning_face 1f971 yellow_circle 1f7e1
  yellow_heart 1f49b yellow_square 1f7e8 yen 1f4b4 yen_banknote 1f4b4 yin_yang 262f yo-yo 1fa80
  yum 1f60b zany_face 1f92a zap 26a1 zebra 1f993 zero 30-fe0f-20e3 zipper-mouth_face 1f910
  zipper__mouth_face 1f910 zombie 1f9df zzz 1f4a4"

end FunctionPipeline.Emoji
